import FleetAtlas.Json.Basic

/-!
# Reading JSON

* `Json.readWithin?`: the value that a text writes, blanks around it allowed, unless it nests too deep;
* `Json.read?`: the same with the limit of nesting that readers have;
* `Json.Text.decode`: the characters of a string, up to its closing quote.

An object keeps the last value of a repeated name, and its fields come out in the order of their names.
-/

namespace FleetAtlas

namespace Json

/-- The blanks between the parts of a value. -/
def isBlank (c : Char) : Bool := c = ' ' || c = '\n' || c = '\r' || c = '\t'

/-- Leaves out leading blanks. -/
def skipBlanks : List Char → List Char
  | [] => []
  | c :: rest => if isBlank c then skipBlanks rest else c :: rest

namespace Text

/-- The value of a hexadecimal digit. -/
def hexValue? (c : Char) : Option Nat :=
  if '0' ≤ c ∧ c ≤ '9' then some (c.toNat - '0'.toNat)
  else if 'a' ≤ c ∧ c ≤ 'f' then some (c.toNat - 'a'.toNat + 10)
  else if 'A' ≤ c ∧ c ≤ 'F' then some (c.toNat - 'A'.toNat + 10)
  else none

/-- The value of four hexadecimal digits. -/
def hex4? (a b c d : Char) : Option Nat := do
  let a ← hexValue? a
  let b ← hexValue? b
  let c ← hexValue? c
  let d ← hexValue? d
  return ((a * 16 + b) * 16 + c) * 16 + d

/-- The character of a pair of surrogates. -/
def surrogates (high low : Nat) : Char := Char.ofNat (0x10000 + (high - 0xD800) * 0x400 + (low - 0xDC00))

/-- What one letter after a backslash stands for. -/
def shortEscape? (c : Char) : Option Char :=
  match c with
  | '"' => some '"'
  | '\\' => some '\\'
  | '/' => some '/'
  | 'n' => some '\n'
  | 'r' => some '\r'
  | 't' => some '\t'
  | 'b' => some '\x08'
  | 'f' => some '\x0c'
  | _ => none

/-- The characters up to the closing quote, and what follows it. -/
def decode : List Char → Option (List Char × List Char)
  | [] => none
  | '"' :: rest => some ([], rest)
  | '\\' :: 'u' :: a :: b :: c :: d :: rest =>
    match hex4? a b c d with
    | none => none
    | some n =>
      if n < 0xD800 ∨ 0xE000 ≤ n then (decode rest).map fun r => (Char.ofNat n :: r.1, r.2)
      else
        match rest with
        | '\\' :: 'u' :: a' :: b' :: c' :: d' :: rest' =>
          match hex4? a' b' c' d' with
          | none => none
          | some m =>
            if n < 0xDC00 ∧ 0xDC00 ≤ m ∧ m < 0xE000 then
              (decode rest').map fun r => (surrogates n m :: r.1, r.2)
            else none
        | _ => none
  | '\\' :: c :: rest =>
    match shortEscape? c with
    | none => none
    | some e => (decode rest).map fun r => (e :: r.1, r.2)
  | c :: rest => if c.toNat < 0x20 ∨ c = '\\' then none else (decode rest).map fun r => (c :: r.1, r.2)

end Text

/-- The digits at the start, as a number, with how many they are. -/
def takeDigits : Nat → Nat → List Char → Nat × Nat × List Char
  | value, count, c :: rest =>
    if c.isDigit then takeDigits (value * 10 + (c.toNat - '0'.toNat)) (count + 1) rest else (value, count, c :: rest)
  | value, count, [] => (value, count, [])

/-- Leaves out trailing zeros of a fraction, but keeps one place. -/
def trimPlaces : Nat → Int → Json
  | 0, m => .decimal (m * 10) 1
  | 1, m => .decimal m 1
  | p + 2, m => if m % 10 = 0 then trimPlaces (p + 1) (m / 10) else .decimal m (p + 2)

/-- The number at the start. -/
def readNumber (cs : List Char) : Option (Json × List Char) :=
  let (negative, cs) := match cs with
    | '-' :: rest => (true, rest)
    | _ => (false, cs)
  let sign : Int := if negative then -1 else 1
  let (whole, count, rest) := takeDigits 0 0 cs
  if count = 0 ∨ (1 < count ∧ cs.head? = some '0') then none
  else
    let fraction : Option (Nat × Nat × List Char) := match rest with
      | '.' :: rest =>
        let (m, places, rest) := takeDigits whole 0 rest
        if places = 0 then none else some (m, places, rest)
      | _ => some (whole, 0, rest)
    fraction.bind fun (m, places, rest) =>
      let exponent : Option (Option Int × List Char) := match rest with
        | e :: rest' =>
          if e = 'e' ∨ e = 'E' then
            let (down, rest') := match rest' with
              | '-' :: r => (true, r)
              | '+' :: r => (false, r)
              | _ => (false, rest')
            let (n, digits, rest') := takeDigits 0 0 rest'
            if digits = 0 then none else some (some (if down then -(n : Int) else n), rest')
          else some (none, rest)
        | [] => some (none, rest)
      exponent.map fun (power, rest) =>
        match power with
        | none => if places = 0 then (.int (sign * m), rest) else (trimPlaces places (sign * m), rest)
        | some p =>
          if p < places then (trimPlaces (places - p).toNat (sign * m), rest)
          else (trimPlaces 0 (sign * (m * Nat.pow 10 (p - places).toNat : Nat)), rest)

mutual

/-- The value at the start, in at most `fuel` nested or consecutive parts, going into no more than `levels` lists and
objects around each other. -/
def readValue : Nat → Nat → List Char → Option (Json × List Char)
  | 0, _, _ => none
  | fuel + 1, levels, cs =>
    match skipBlanks cs with
    | 'n' :: 'u' :: 'l' :: 'l' :: rest => some (.null, rest)
    | 't' :: 'r' :: 'u' :: 'e' :: rest => some (.bool true, rest)
    | 'f' :: 'a' :: 'l' :: 's' :: 'e' :: rest => some (.bool false, rest)
    | '"' :: rest => (Text.decode rest).map fun r => (.str (String.ofList r.1), r.2)
    | '[' :: rest =>
      match levels with
      | 0 => none
      | levels + 1 =>
        match skipBlanks rest with
        | ']' :: rest => some (.arr [], rest)
        | rest => (readItems fuel levels rest).map fun r => (.arr r.1, r.2)
    | '{' :: rest =>
      match levels with
      | 0 => none
      | levels + 1 =>
        match skipBlanks rest with
        | '}' :: rest => some (.obj [], rest)
        | rest => (readFields fuel levels rest).map fun r => (.obj (Dict.ofList r.1).toList, r.2)
    | cs => readNumber cs

/-- Items up to the closing bracket. -/
def readItems : Nat → Nat → List Char → Option (List Json × List Char)
  | 0, _, _ => none
  | fuel + 1, levels, cs =>
    (readValue fuel levels cs).bind fun (j, rest) =>
      match skipBlanks rest with
      | ']' :: rest => some ([j], rest)
      | ',' :: rest => (readItems fuel levels rest).map fun r => (j :: r.1, r.2)
      | _ => none

/-- Fields up to the closing brace. -/
def readFields : Nat → Nat → List Char → Option (List (String × Json) × List Char)
  | 0, _, _ => none
  | fuel + 1, levels, cs =>
    match skipBlanks cs with
    | '"' :: rest =>
      (Text.decode rest).bind fun (name, rest) =>
        match skipBlanks rest with
        | ':' :: rest =>
          (readValue fuel levels rest).bind fun (j, rest) =>
            let entry := (String.ofList name, j)
            match skipBlanks rest with
            | '}' :: rest => some ([entry], rest)
            | ',' :: rest => (readFields fuel levels rest).map fun r => (entry :: r.1, r.2)
            | _ => none
        | _ => none
    | _ => none

end

/-- The value that a text writes, with no more than `levels` lists and objects around each other. -/
def readWithin? (levels : Nat) (text : String) : Option Json :=
  let cs := text.toList
  match readValue (cs.length + 1) levels cs with
  | some (j, rest) => if (skipBlanks rest).isEmpty then some j else none
  | none => none

/-- The most lists and objects around each other that a reader goes into: a text that nests 128 of them is refused. -/
def mostLevels : Nat := 127

/-- The value that a text writes. -/
def read? (text : String) : Option Json := readWithin? mostLevels text

end Json

end FleetAtlas
