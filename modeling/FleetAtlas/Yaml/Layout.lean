import FleetAtlas.Yaml.Indented
import FleetAtlas.Yaml.Token

/-!
# From text to tokens

`Layout` reads a text token by token. It knows the indentations that are open, the brackets that are open, and where a
key may have begun: whether something is a key shows only at the colon behind it, and the token of the key is put in
front of it then.

* `Layout.skip`: what stands between tokens;
* `Layout.step?`: the next token;
* `Token.ofText?`: all tokens of a text.
-/

namespace FleetAtlas.Yaml

/-- A place at which a key may have begun. -/
structure KeyPlace where
  /-- Whether the indentation says that a key must be there. -/
  required : Bool
  /-- The number of tokens in front of it. -/
  index : Nat
  position : Position
deriving DecidableEq

/-- The number of octets from the beginning of a key to the colon behind it that is not exceeded. -/
def keyLimit : Nat := 1024

/-- Whether a key that began at a place can end at a position: in the same line, and not too far away. -/
def KeyPlace.reaches (k : KeyPlace) (p : Position) : Bool :=
  k.position.line = p.line && p.octets ≤ k.position.octets + keyLimit

/-- How far a text has been read. -/
structure Layout where
  rest : List Char
  position : Position
  tokens : Array Token
  /-- The indentations of the sequences and mappings that are open, the innermost first. -/
  indents : List Nat
  /-- Where a key may have begun within the innermost bracket. -/
  key : Option KeyPlace
  /-- Where a key may have begun around each bracket that is open, the innermost first. -/
  outerKeys : List (Option KeyPlace)
  /-- Whether a key may begin here. -/
  keyAllowed : Bool

namespace Layout

/-- The beginning of a text. -/
def start (cs : List Char) : Layout := ⟨cs, .start, #[], [], none, [], true⟩

/-- Whether a bracket is open. -/
def inFlow (l : Layout) : Bool := !l.outerKeys.isEmpty

/-- The innermost indentation. -/
def indent? (l : Layout) : Option Nat := l.indents.head?

/-- Goes on to a rest of the text. -/
def moveTo (l : Layout) (rest : List Char) : Layout :=
  { l with rest, position := l.position.pass (l.rest.take (l.rest.length - rest.length)) }

/-- Adds a token that ends where a rest of the text begins. -/
def push (l : Layout) (t : Token) (rest : List Char) : Layout := { l.moveTo rest with tokens := l.tokens.push t }

/-- Puts a token behind so many others. -/
def insert (l : Layout) (index : Nat) (t : Token) : Layout := { l with tokens := l.tokens.insertIdxIfInBounds index t }

/-! ### Keys -/

/-- No key has begun; one that must be there is missing. -/
def dropKey? (l : Layout) : Option Layout :=
  match l.key with
  | none => some l
  | some k => if k.required then none else some { l with key := none }

/-- A key may begin here, if one is allowed. -/
def markKey? (l : Layout) : Option Layout :=
  if l.keyAllowed then
    l.dropKey?.map fun l =>
      { l with key := some ⟨!l.inFlow && l.indent? = some l.position.column, l.tokens.size, l.position⟩ }
  else some l

/-- Says whether a key may begin. -/
def allowKey (l : Layout) (allowed : Bool) : Layout := { l with keyAllowed := allowed }

/-! ### Indentation -/

/-- Opens an indentation, if it is larger than the innermost, with a token behind so many others. -/
def openIndent (l : Layout) (column index : Nat) (t : Token) : Layout :=
  if !l.inFlow && l.indent?.all (· < column) then { l.insert index t with indents := column :: l.indents } else l

/-- Closes the indentations that are larger than a column, or all. -/
def closeIndents (l : Layout) (column : Option Nat) : Layout :=
  if l.inFlow then l
  else
    let closed := l.indents.takeWhile fun i => column.all (· < i)
    { l with
      indents := l.indents.drop closed.length
      tokens := l.tokens ++ Array.replicate closed.length Token.blockEnd }

/-! ### Between tokens -/

/-- Leaves out blanks, comments and line ends. Behind a line end a key may begin, unless a bracket is open; where one
may begin, a tab is no blank. -/
def skipGaps (flow allowed lineStart comment : Bool) : List Char → Bool × List Char
  | [] => (allowed, [])
  | c :: rest =>
    if isLineEnd c then skipGaps flow (allowed || !flow) true false rest
    else if comment then skipGaps flow allowed false true rest
    else if c = ' ' || (c = '\t' && (flow || !allowed)) || (c = '\ufeff' && lineStart) then
      skipGaps flow allowed false false rest
    else if c = '#' then skipGaps flow allowed false true rest
    else (allowed, c :: rest)

/-- Goes on to the next token. -/
def skip (l : Layout) : Layout :=
  let (allowed, rest) := skipGaps l.inFlow l.keyAllowed (l.position.column = 0) false l.rest
  (l.moveTo rest).allowKey allowed

/-! ### Tokens -/

/-- A directive. -/
def directive? (l : Layout) (cs : List Char) : Option Layout := do
  let l ← (l.closeIndents none).dropKey?
  let (token, rest) ← Token.readDirective? cs
  return (l.allowKey false).push token rest

/-- A mark between documents. -/
def documentMark? (l : Layout) (t : Token) : Option Layout := do
  let l ← (l.closeIndents none).dropKey?
  return (l.allowKey false).push t (l.rest.drop 3)

/-- An opening bracket, with which a key may begin. -/
def openFlow? (l : Layout) (t : Token) (rest : List Char) : Option Layout :=
  l.markKey?.map fun l => { l with key := none, outerKeys := l.key :: l.outerKeys, keyAllowed := true }.push t rest

/-- A closing bracket. -/
def closeFlow? (l : Layout) (t : Token) (rest : List Char) : Option Layout :=
  l.dropKey?.map fun l =>
    { l with key := l.outerKeys.head?.join, outerKeys := l.outerKeys.tail, keyAllowed := false }.push t rest

/-- A comma between brackets. -/
def flowEntry? (l : Layout) (rest : List Char) : Option Layout :=
  l.dropKey?.map fun l => (l.allowKey true).push .flowEntry rest

/-- A dash in front of an item. -/
def blockEntry? (l : Layout) (rest : List Char) : Option Layout :=
  if l.inFlow || l.keyAllowed then
    (l.openIndent l.position.column l.tokens.size .blockSequenceStart).dropKey?.map fun l =>
      (l.allowKey true).push .blockEntry rest
  else none

/-- A question mark in front of a key. -/
def explicitKey? (l : Layout) (rest : List Char) : Option Layout :=
  if l.inFlow || l.keyAllowed then
    (l.openIndent l.position.column l.tokens.size .blockMappingStart).dropKey?.map fun l =>
      (l.allowKey !l.inFlow).push .key rest
  else none

/-- A colon: what began at the place that was noted is a key, if it reaches up to here. -/
def value? (l : Layout) (rest : List Char) : Option Layout :=
  let bare :=
    if l.inFlow then some ((l.allowKey false).push .value rest)
    else if l.keyAllowed then
      some (((l.openIndent l.position.column l.tokens.size .blockMappingStart).allowKey true).push .value rest)
    else none
  match l.key with
  | none => bare
  | some k =>
    if k.reaches l.position then
      let l := (l.insert k.index .key).openIndent k.position.column k.index .blockMappingStart
      some ({ l with key := none, keyAllowed := false }.push .value rest)
    else if k.required then none
    else bare

/-- A name behind a sign. -/
def name? (l : Layout) (token : String → Token) (cs : List Char) : Option Layout := do
  let l ← l.markKey?
  let (name, rest) ← Token.readName? cs
  return (l.allowKey false).push (token name) rest

/-- A tag. -/
def tag? (l : Layout) : Option Layout := do
  let l ← l.markKey?
  let (handle, tag, rest) ← readTag? l.inFlow l.rest
  return (l.allowKey false).push (.tag handle tag) rest

/-- An indented scalar. -/
def indented? (l : Layout) (style : Style) (cs : List Char) : Option Layout := do
  let l ← l.dropKey?
  let (text, rest) ← readIndented? (style = .folded) l.indent? cs
  return (l.allowKey true).push (.scalar style (String.ofList text)) rest

/-- A quoted scalar. -/
def quoted? (l : Layout) (read : List Char → Option (List Char × List Char)) (cs : List Char) : Option Layout := do
  let l ← l.markKey?
  let (text, rest) ← read cs
  return (l.allowKey false).push (.scalar .quoted (String.ofList text)) rest

/-- A plain scalar. -/
def plain? (l : Layout) : Option Layout := do
  let l ← l.markKey?
  let (text, broken, rest) ← readPlain? l.inFlow (l.indent?.elim 0 (· + 1)) .empty l.rest
  return (l.allowKey broken).push (.scalar .plain (String.ofList text)) rest

/-- The next token, which begins here. -/
def step? (l : Layout) : Option Layout :=
  match l.rest with
  | [] => none
  | c :: rest =>
    let free := l.inFlow || atGap rest
    if l.position.column = 0 && c = '%' then l.directive? rest
    else if l.position.column = 0 && atDocumentMark l.rest then
      l.documentMark? (if c = '-' then .documentStart else .documentEnd)
    else if c = '[' then l.openFlow? .flowSequenceStart rest
    else if c = '\x7b' then l.openFlow? .flowMappingStart rest
    else if c = ']' then l.closeFlow? .flowSequenceEnd rest
    else if c = '\x7d' then l.closeFlow? .flowMappingEnd rest
    else if c = ',' then l.flowEntry? rest
    else if c = '-' && atGap rest then l.blockEntry? rest
    else if c = '?' && free then l.explicitKey? rest
    else if c = ':' && free then l.value? rest
    else if c = '*' then l.name? .reference rest
    else if c = '&' then l.name? .anchor rest
    else if c = '!' then l.tag?
    else if c = '|' && !l.inFlow then l.indented? .literal rest
    else if c = '>' && !l.inFlow then l.indented? .folded rest
    else if c = '\'' then l.quoted? (readSingle? .empty) rest
    else if c = '"' then l.quoted? (readDouble? (.outside .empty)) rest
    else if startsPlain l.inFlow l.rest then l.plain?
    else none

/-- Reads to the end of the text, in at most so many steps. -/
def finish? (l : Layout) : Nat → Option Layout
  | 0 => none
  | n + 1 =>
    let l := l.skip
    if l.rest.isEmpty then (l.closeIndents none).dropKey?
    else do (← (l.closeIndents (some l.position.column)).step?).finish? n

end Layout

/-- All tokens of a text, of which each has a character at least. -/
def Token.ofText? (cs : List Char) : Option (List Token) :=
  ((Layout.start cs).finish? (cs.length + 1)).map fun l => l.tokens.toList

end FleetAtlas.Yaml
