/-!
# Counts in few digits

A count is written as the decimal with the fewest significant digits that is nearer to its binary64 than to any other;
zeros fill the other places.

* `Binary64.round`: the binary64 of a count, a half going to the even neighbour;
* `Binary64.shortest`: the decimal, `Binary64.text` its digits.
-/

namespace FleetAtlas

/-- A positive number `mantissa * unit`, the unit being a power of two. -/
structure Binary64 where
  mantissa : Nat
  unit : Nat
deriving DecidableEq, Repr

namespace Binary64

/-- The least mantissa of a number that takes all bits. -/
def leastMantissa : Nat := 1 <<< 52

/-- The number itself. -/
def value (b : Binary64) : Nat := b.mantissa * b.unit

/-- The nearest number of 53 significant bits, a half going to the even neighbour. -/
def round (n : Nat) : Binary64 :=
  let unit := 1 <<< (n.log2 - 52)
  let low := n / unit
  let rest := n % unit
  let mantissa := if unit < 2 * rest || (unit = 2 * rest && low % 2 = 1) then low + 1 else low
  if mantissa = 2 * leastMantissa then ⟨leastMantissa, 2 * unit⟩ else ⟨mantissa, unit⟩

/-- Whether a decimal is read as this number: it is not farther than half the way to the neighbours, whose middle belongs
to the even one. The neighbour below a power of two is nearer. Distances are in quarters. -/
def covers (b : Binary64) (n : Nat) : Bool :=
  let below := if b.mantissa = leastMantissa then b.unit else 2 * b.unit
  let distance := if b.value ≤ n then 4 * (n - b.value) else 4 * (b.value - n)
  let reach := if b.value ≤ n then 2 * b.unit else below
  distance < reach || (distance = reach && b.mantissa % 2 = 0)

/-- The nearer of the two multiples of a step around the number, if it is read as the number. -/
def nearest? (b : Binary64) (step : Nat) : Option Nat :=
  let low := b.value / step * step
  let high := low + step
  let candidate := if b.value - low ≤ high - b.value then low else high
  if b.covers candidate then some candidate else none

/-- The decimal with the fewest digits, among those with so many places to fill at most. -/
def shortestFrom (b : Binary64) : Nat → Nat
  | 0 => b.value
  | places + 1 => (b.nearest? (Nat.pow 10 (places + 1))).getD (b.shortestFrom places)

/-- The decimal with the fewest digits. -/
def shortest (b : Binary64) : Nat := b.shortestFrom 20

/-- The digits of a count. -/
def text (count : Nat) : String := (round count).shortest.repr

end Binary64

end FleetAtlas
