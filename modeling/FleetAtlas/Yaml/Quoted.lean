import FleetAtlas.Yaml.Gap

/-!
# Quoted and plain scalars

The scalars whose lines are folded, each read up to its end:

* `readSingle?`: between single quotes, of which one inside is written twice;
* `readDouble?`: between double quotes, where a backslash begins an escape;
* `readPlain?`: without quotes, which end at a colon or a comment, and in brackets at a comma or a bracket.
-/

namespace FleetAtlas.Yaml

/-! ### Digits -/

/-- The value of a digit. -/
def digit? (radix : Nat) (c : Char) : Option Nat :=
  let value :=
    if '0' ≤ c ∧ c ≤ '9' then c.toNat - '0'.toNat
    else if 'a' ≤ c ∧ c ≤ 'z' then c.toNat - 'a'.toNat + 10
    else if 'A' ≤ c ∧ c ≤ 'Z' then c.toNat - 'A'.toNat + 10
    else radix
  if value < radix then some value else none

/-- The number that digits stand for, at least one. -/
def digits? (radix : Nat) (cs : List Char) : Option Nat :=
  if cs.isEmpty then none else cs.foldlM (fun n c => (digit? radix c).map fun d => n * radix + d) 0

/-! ### Between single quotes -/

/-- The text behind a gap up to the closing single quote, and what follows. -/
def readSingle? (gap : Gap) : List Char → Option (List Char × List Char)
  | [] => none
  | '\'' :: '\'' :: rest => (readSingle? .empty rest).map fun (text, rest) => (gap.folded ++ '\'' :: text, rest)
  | '\'' :: rest => some (gap.folded, rest)
  | c :: rest =>
    if isBlank c || isLineEnd c then readSingle? (gap.add c) rest
    else if gap.atDocumentMark (c :: rest) then none
    else (readSingle? .empty rest).map fun (text, rest) => (gap.folded ++ c :: text, rest)

/-! ### Between double quotes -/

/-- The character that a letter after a backslash stands for. -/
def escaped? (c : Char) : Option Char :=
  match c with
  | '0' => some '\x00'
  | 'a' => some '\x07'
  | 'b' => some '\x08'
  | 't' | '\t' => some '\t'
  | 'n' => some '\n'
  | 'v' => some '\x0b'
  | 'f' => some '\x0c'
  | 'r' => some '\x0d'
  | 'e' => some '\x1b'
  | ' ' => some ' '
  | '"' => some '"'
  | '/' => some '/'
  | '\\' => some '\\'
  | 'N' => some '\u0085'
  | '_' => some '\u00a0'
  | 'L' => some '\u2028'
  | 'P' => some '\u2029'
  | _ => none

/-- How many digits of a code point follow a letter after a backslash. -/
def codeLength? (c : Char) : Option Nat :=
  match c with
  | 'x' => some 2
  | 'u' => some 4
  | 'U' => some 8
  | _ => none

/-- Where a reader between double quotes stands. -/
inductive Escape where
  /-- Behind a gap between words. -/
  | outside (gap : Gap)
  /-- Behind a backslash. -/
  | begun
  /-- Among the hexadecimal digits of a code point, of which so many are left. -/
  | code (left value : Nat)

/-- The text up to the closing double quote, with its escapes resolved, and what follows. -/
def readDouble? (state : Escape) : List Char → Option (List Char × List Char)
  | [] => none
  | c :: rest =>
    match state with
    | .outside gap =>
      if c = '"' then some (gap.folded, rest)
      else if isBlank c || isLineEnd c then readDouble? (.outside (gap.add c)) rest
      else if gap.atDocumentMark (c :: rest) then none
      else if c = '\\' then (readDouble? .begun rest).map fun (text, rest) => (gap.folded ++ text, rest)
      else (readDouble? (.outside .empty) rest).map fun (text, rest) => (gap.folded ++ c :: text, rest)
    | .begun =>
      if isLineEnd c then readDouble? (.outside .escapedEnd) rest
      else
        match codeLength? c, escaped? c with
        | some length, _ => readDouble? (.code length 0) rest
        | none, some char => (readDouble? (.outside .empty) rest).map fun (text, rest) => (char :: text, rest)
        | none, none => none
    | .code left value =>
      match digit? 16 c with
      | none => none
      | some d =>
        let value := value * 16 + d
        if 1 < left then readDouble? (.code (left - 1) value) rest
        else if value.isValidChar then
          (readDouble? (.outside .empty) rest).map fun (text, rest) => (Char.ofNat value :: text, rest)
        else none

/-! ### Without quotes -/

/-- Whether a plain scalar ends behind a gap, before these characters: at an indentation that is too small, a mark
between documents, a comment, a colon, and in brackets at a comma or a bracket. -/
def endsPlain (flow : Bool) (indent : Nat) (gap : Gap) : List Char → Bool
  | [] => true
  | c :: rest =>
    (!flow && gap.broken && gap.column < indent) || gap.atDocumentMark (c :: rest) || (c = '#' && !gap.isEmpty)
      || (c = ':' && atGap rest) || (flow && isFlowMark c)

/-- A colon in brackets before one of these characters is refused. -/
def isColonClash : List Char → Bool
  | ':' :: c :: _ => isFlowMark c || c = '?'
  | _ => false

/-- The text of a plain scalar behind a gap, whether it ends behind a line end, and what follows; lines that continue it
are indented by so much at least, and not by tabs. -/
def readPlain? (flow : Bool) (indent : Nat) (gap : Gap) : List Char → Option (List Char × Bool × List Char)
  | [] => some ([], gap.broken, [])
  | c :: rest =>
    if isBlank c || isLineEnd c then
      if c = '\t' && gap.broken && gap.column < indent then none else readPlain? flow indent (gap.add c) rest
    else if endsPlain flow indent gap (c :: rest) then some ([], gap.broken, c :: rest)
    else if flow && isColonClash (c :: rest) then none
    else
      (readPlain? flow indent .empty rest).map fun (text, broken, rest) => (gap.folded ++ c :: text, broken, rest)

/-- A character that begins something else than a plain scalar, unless a word begins with it. -/
def isIndicator (c : Char) : Bool :=
  ['-', '?', ':', ',', '[', ']', '\x7b', '\x7d', '#', '&', '*', '!', '|', '>', '\'', '"', '%', '@', '\x60'].contains c

/-- Whether a plain scalar can begin here. -/
def startsPlain (flow : Bool) : List Char → Bool
  | [] => false
  | c :: rest =>
    !(isBlank c || isLineEnd c || isIndicator c) || (c = '-' && !atGap rest)
      || (!flow && (c = '?' || c = ':') && !atGap rest)

end FleetAtlas.Yaml
