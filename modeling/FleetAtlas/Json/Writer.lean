import FleetAtlas.Json.Basic

/-!
# Writing JSON

* `Json.write`: the text of a value, without blanks, the fields in the order they have;
* `Json.Text.encode`: the characters of a string, escaped only where JSON asks for it.
-/

namespace FleetAtlas

namespace Json

namespace Text

/-- A hexadecimal digit, in lower case. -/
def hexDigit (n : Nat) : Char :=
  if n < 10 then Char.ofNat ('0'.toNat + n) else Char.ofNat ('a'.toNat + (n - 10))

/-- A character of a string: the short escapes, `\u00..` for the other control characters, all else as it is. -/
def encodeChar (c : Char) : List Char :=
  if c = '"' then ['\\', '"']
  else if c = '\\' then ['\\', '\\']
  else if c = '\n' then ['\\', 'n']
  else if c = '\r' then ['\\', 'r']
  else if c = '\t' then ['\\', 't']
  else if c = '\x08' then ['\\', 'b']
  else if c = '\x0c' then ['\\', 'f']
  else if c.toNat < 0x20 then ['\\', 'u', '0', '0', hexDigit (c.toNat / 16), hexDigit (c.toNat % 16)]
  else [c]

/-- The characters between the quotes. -/
def encode : List Char → List Char
  | [] => []
  | c :: rest => encodeChar c ++ encode rest

/-- A string in quotes. -/
def quote (s : String) : List Char := '"' :: encode s.toList ++ ['"']

end Text

/-- The digits of a natural number. -/
def writeNat (n : Nat) : List Char := (Nat.repr n).toList

/-- An integer. -/
def writeInt (n : Int) : List Char := if n < 0 then '-' :: writeNat n.natAbs else writeNat n.natAbs

/-- A number with a point; the last places stay as they are. -/
def writeDecimal (mantissa : Int) (places : Nat) : List Char :=
  let digits := writeNat mantissa.natAbs
  let padded := List.replicate (places + 1 - digits.length) '0' ++ digits
  let whole := padded.take (padded.length - places)
  let fraction := padded.drop (padded.length - places)
  (if mantissa < 0 then ['-'] else []) ++ whole ++ (if places = 0 then [] else '.' :: fraction)

mutual

/-- The characters of a value. -/
def writeChars : Json → List Char
  | .null => ['n', 'u', 'l', 'l']
  | .bool true => ['t', 'r', 'u', 'e']
  | .bool false => ['f', 'a', 'l', 's', 'e']
  | .int n => writeInt n
  | .decimal m p => writeDecimal m p
  | .str s => Text.quote s
  | .arr items => '[' :: writeItems items ++ [']']
  | .obj fields => '{' :: writeFields fields ++ ['}']

/-- Items with commas between them. -/
def writeItems : List Json → List Char
  | [] => []
  | [j] => writeChars j
  | j :: k :: rest => writeChars j ++ ',' :: writeItems (k :: rest)

/-- Fields with commas between them. -/
def writeFields : List (String × Json) → List Char
  | [] => []
  | [(name, j)] => Text.quote name ++ ':' :: writeChars j
  | (name, j) :: e :: rest => Text.quote name ++ ':' :: writeChars j ++ ',' :: writeFields (e :: rest)

end

/-- The text of a value, without blanks. -/
def write (j : Json) : String := String.ofList (writeChars j)

end Json

end FleetAtlas
