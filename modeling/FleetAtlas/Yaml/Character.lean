/-!
# Characters of documents

* `isPrintable`: the characters that may be written;
* `isBlank`, `isLineEnd`: what separates words, and what separates lines;
* `skipLine?`: the rest of a line that holds no more than a comment;
* `normalizeEnds`: the ways to end a line that are read as a line feed;
* `Position`: a place in a text, `Position.pass` the place behind some characters.
-/

namespace FleetAtlas.Yaml

/-- The characters that may be written. -/
def isPrintable (c : Char) : Bool :=
  let n := c.toNat
  n == 0x09 || n == 0x0A || n == 0x0D || (0x20 ≤ n && n ≤ 0x7E) || n == 0x85 || (0xA0 ≤ n && n ≤ 0xD7FF)
    || (0xE000 ≤ n && n ≤ 0xFFFD) || 0x10000 ≤ n

/-- A blank in a line. -/
def isBlank (c : Char) : Bool := c = ' ' || c = '\t'

/-- The end of a line: a line feed, or one of the two separators that are kept as they are. -/
def isLineEnd (c : Char) : Bool := c = '\n' || c = '\u2028' || c = '\u2029'

/-- A bracket or a comma. -/
def isFlowMark (c : Char) : Bool := [',', '[', ']', '\x7b', '\x7d'].contains c

/-- A character of a name. -/
def isNameChar (c : Char) : Bool := c.isAlphanum || c = '_' || c = '-'

/-- Whether a word ends here: at a blank, at the end of the line, or at the end of the text. -/
def atGap : List Char → Bool
  | [] => true
  | c :: _ => isBlank c || isLineEnd c

/-- Whether three dashes or three points stand here, which separate documents at the start of a line. -/
def atDocumentMark : List Char → Bool
  | a :: b :: c :: rest => (a = '-' || a = '.') && b = a && c = a && atGap rest
  | _ => false

/-! ### Line ends -/

/-- The rest of a line that holds no more than blanks and a comment is left out. -/
def skipLine? (cs : List Char) : Option (List Char) :=
  let cs := cs.dropWhile isBlank
  let cs := if cs.head? = some '#' then cs.dropWhile (!isLineEnd ·) else cs
  match cs with
  | [] => some []
  | c :: rest => if isLineEnd c then some rest else none

/-- Writes as a line feed all that ends a line and is read as one: a carriage return, with a line feed or alone, and the
next line character. -/
def normalizeEnds : List Char → List Char
  | '\x0d' :: '\n' :: rest => '\n' :: normalizeEnds rest
  | c :: rest => (if c = '\x0d' ∨ c = '\u0085' then '\n' else c) :: normalizeEnds rest
  | [] => []

/-! ### Places -/

/-- A place in a text: how many lines come before it, and how many characters of its own line, and the octets that
these characters take. -/
structure Position where
  line : Nat
  column : Nat
  octets : Nat
deriving DecidableEq, Repr

namespace Position

/-- The beginning of a text. -/
def start : Position := ⟨0, 0, 0⟩

/-- The place behind a character. -/
def next (p : Position) (c : Char) : Position :=
  if isLineEnd c then ⟨p.line + 1, 0, 0⟩ else ⟨p.line, p.column + 1, p.octets + c.utf8Size⟩

/-- The place behind some characters. -/
def pass (p : Position) (cs : List Char) : Position := cs.foldl next p

end Position

end FleetAtlas.Yaml
