import FleetAtlas.Yaml.Tag

/-!
# Tokens

The parts that a document consists of, with the indentation of lines made explicit: a sequence or a mapping that is
written by indentation begins and ends with a token of its own.
-/

namespace FleetAtlas.Yaml

/-- How a scalar is written. -/
inductive Style where
  | plain
  | quoted
  /-- Lines that are kept. -/
  | literal
  /-- Lines that are joined. -/
  | folded
deriving DecidableEq, Repr

/-- A part of a document. -/
inductive Token where
  | version (major minor : Nat)
  | tagHandle (handle : String) (tag : Tag)
  | documentStart
  | documentEnd
  | blockSequenceStart
  | blockMappingStart
  | blockEnd
  | flowSequenceStart
  | flowSequenceEnd
  | flowMappingStart
  | flowMappingEnd
  | blockEntry
  | flowEntry
  | key
  | value
  | reference (name : String)
  | anchor (name : String)
  | tag (handle : String) (tag : Tag)
  | scalar (style : Style) (text : String)
deriving DecidableEq

namespace Token

/-! ### Directives -/

/-- The digits of a version, at most nine, and what follows. -/
def readVersionNumber? (cs : List Char) : Option (Nat × List Char) :=
  let ds := cs.takeWhile Char.isDigit
  if 9 < ds.length then none else (digits? 10 ds).map fun n => (n, cs.dropWhile Char.isDigit)

/-- A version, and what follows. -/
def readVersion? (cs : List Char) : Option (Token × List Char) := do
  let (major, rest) ← readVersionNumber? (cs.dropWhile isBlank)
  match rest with
  | '.' :: rest =>
    let (minor, rest) ← readVersionNumber? rest
    return (.version major minor, rest)
  | _ => none

/-- What a handle stands for, and what follows. -/
def readTagHandle? (cs : List Char) : Option (Token × List Char) := do
  let (handle, rest) ← readHandle? (cs.dropWhile isBlank)
  if (handle = "!" || isHandle handle) && rest.head?.any isBlank then
    let (uri, rest) ← readSomeUri? true (rest.dropWhile isBlank)
    if atGap rest then some (.tagHandle handle uri, rest) else none
  else none

/-- A directive from behind its percent sign on, and what follows its line end. -/
def readDirective? (cs : List Char) : Option (Token × List Char) := do
  let name := cs.takeWhile isNameChar
  let rest := cs.dropWhile isNameChar
  let (token, rest) ←
    if !atGap rest then none
    else if name = ['Y', 'A', 'M', 'L'] then readVersion? rest
    else if name = ['T', 'A', 'G'] then readTagHandle? rest
    else none
  return (token, ← skipLine? rest)

/-! ### Names -/

/-- The name of an anchor or of a reference to one, and what follows. -/
def readName? (cs : List Char) : Option (String × List Char) :=
  let name := cs.takeWhile isNameChar
  let rest := cs.dropWhile isNameChar
  let ends := atGap rest || rest.head?.any fun c => ['?', ':', ',', ']', '\x7d', '%', '@', '\x60'].contains c
  if name.isEmpty || !ends then none else some (String.ofList name, rest)

end Token

end FleetAtlas.Yaml
