import FleetAtlas.Yaml.Quoted

/-!
# Plain scalars

A scalar without quotes stands for nothing, a truth value, a number or a text, as its letters say:

* `Yaml.readInt?`: integers, decimal without leading zeros, or with `0x`, `0o` or `0b` in front;
* `Yaml.isFloat`: numbers with a point or an exponent, the infinities and the one that is no number;
* `Yaml.resolve`: what a plain scalar stands for.
-/

namespace FleetAtlas.Yaml

/-- What a plain scalar stands for. -/
inductive Plain where
  | null
  | bool (b : Bool)
  | int (n : Int)
  /-- An integer that takes more than 64 bits but not more than 128. -/
  | wide
  | float
  | text
deriving DecidableEq, Repr

/-! ### Integers -/

/-- An integer without its sign. -/
def readMagnitude? : List Char → Option Nat
  | '0' :: 'x' :: ds => digits? 16 ds
  | '0' :: 'o' :: ds => digits? 8 ds
  | '0' :: 'b' :: ds => digits? 2 ds
  | '0' :: _ :: _ => none
  | ds => digits? 10 ds

/-- An integer without a minus sign. -/
def readNat? : List Char → Option Nat
  | '+' :: ds => readMagnitude? ds
  | ds => readMagnitude? ds

/-- An integer. -/
def readInt? : List Char → Option Int
  | '+' :: ds => (readMagnitude? ds).map Int.ofNat
  | '-' :: ds => (readMagnitude? ds).map fun n => -Int.ofNat n
  | ds => (readMagnitude? ds).map Int.ofNat

/-! ### Other numbers -/

/-- The digits in front, and the rest. -/
def spanDigits (cs : List Char) : List Char × List Char := (cs.takeWhile Char.isDigit, cs.dropWhile Char.isDigit)

/-- The exponent after a number, and whether there is nothing else. -/
def readExponent? : List Char → Option Int
  | [] => some 0
  | c :: cs =>
    if c = 'e' ∨ c = 'E' then
      match cs with
      | '+' :: ds => (digits? 10 ds).map Int.ofNat
      | '-' :: ds => (digits? 10 ds).map fun n => -Int.ofNat n
      | ds => (digits? 10 ds).map Int.ofNat
    else none

/-- The decimal digits and the exponent of a number without its sign. -/
def readDecimal? (cs : List Char) : Option (Nat × Int) := do
  let (whole, rest) := spanDigits cs
  let (fraction, rest) :=
    match rest with
    | '.' :: rest => spanDigits rest
    | rest => ([], rest)
  let mantissa ← digits? 10 (whole ++ fraction)
  let exponent ← readExponent? rest
  return (mantissa, exponent - fraction.length)

/-- The least number that no binary64 is near to. -/
def tooLarge : Nat := (1 <<< 1024) - (1 <<< 970)

/-- Whether a decimal of so many digits is near to a binary64. -/
def isFinite (count mantissa : Nat) (exponent : Int) : Bool :=
  if mantissa = 0 then true
  else if exponent ≤ 0 then
    decide (count < exponent.natAbs) || decide (mantissa < tooLarge * Nat.pow 10 exponent.natAbs)
  else decide (exponent < 400) && decide (mantissa * Nat.pow 10 exponent.toNat < tooLarge)

/-- Digits that begin with a superfluous zero, with or without a sign. -/
def hasLeadingZero (cs : List Char) : Bool :=
  let ds :=
    match cs with
    | '+' :: ds | '-' :: ds => ds
    | ds => ds
  match ds with
  | '0' :: d :: rest => (d :: rest).all Char.isDigit
  | _ => false

/-- A number of the finite ones. -/
def isDecimal (cs : List Char) : Bool :=
  let magnitude :=
    match cs with
    | '+' :: ds | '-' :: ds => ds
    | ds => ds
  match readDecimal? magnitude with
  | some (mantissa, exponent) => isFinite cs.length mantissa exponent
  | none => false

/-- A number of any kind, an infinity, or the one that is no number. -/
def isNumber (text : String) : Bool :=
  [".inf", ".Inf", ".INF", "+.inf", "+.Inf", "+.INF", "-.inf", "-.Inf", "-.INF", ".nan", ".NaN", ".NAN"].contains text
    || isDecimal text.toList

/-- A number that digits with a superfluous zero in front are not. -/
def isFloat (text : String) : Bool := isNumber text && !hasLeadingZero text.toList

/-! ### Resolution -/

/-- The words that stand for nothing. -/
def isNullWord (text : String) : Bool := ["~", "null", "Null", "NULL"].contains text

/-- The texts that stand for nothing. -/
def isNull (text : String) : Bool := text.isEmpty || isNullWord text

/-- The truth value that a text stands for. -/
def readBool? (text : String) : Option Bool :=
  if ["true", "True", "TRUE"].contains text then some true
  else if ["false", "False", "FALSE"].contains text then some false
  else none

/-- Whether an integer fits into so many bits, with a sign or without. -/
def fitsInto (bits : Nat) (n : Int) : Bool :=
  match n with
  | .ofNat m => m < 1 <<< bits
  | .negSucc m => m < 1 <<< (bits - 1)

/-- What an integer is taken for, if it does not take too many bits. -/
def ofInt? (n : Int) : Option Plain :=
  if fitsInto 64 n then some (.int n) else if fitsInto 128 n then some .wide else none

/-- What a plain scalar stands for. -/
def resolve (text : String) : Plain :=
  if isNull text then .null
  else
    match readBool? text with
    | some b => .bool b
    | none => ((readInt? text.toList).bind ofInt?).getD (if isFloat text then .float else .text)

end FleetAtlas.Yaml
