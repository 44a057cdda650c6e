/-!
# Points in time

* `Timestamp`: a day of the Gregorian calendar and a time of that day in UTC, to the nanosecond; a second may be the 60th;
* `Timestamp.make?`: the point in time of given numbers, if there is one;
* `Timestamp.shift?`: the same point as read off a clock that is ahead or behind by some minutes.

Points in time are ordered field by field.
-/

namespace FleetAtlas

/-- Whether a year has a 29th of February. -/
def isLeapYear (year : Int) : Bool := year % 4 = 0 && (year % 100 ≠ 0 || year % 400 = 0)

/-- The number of days of a month. -/
def daysInMonth (year : Int) (month : Nat) : Nat :=
  if month = 2 then (if isLeapYear year then 29 else 28)
  else if month = 4 ∨ month = 6 ∨ month = 9 ∨ month = 11 then 30
  else 31

/-- The first year that a point in time can have. -/
def firstYear : Int := -262143

/-- The last year that a point in time can have. -/
def lastYear : Int := 262142

/-- Year, month and day name a day within the years that are covered. -/
def IsDay (year : Int) (month day : Nat) : Prop :=
  firstYear ≤ year ∧ year ≤ lastYear ∧ 1 ≤ month ∧ month ≤ 12 ∧ 1 ≤ day ∧ day ≤ daysInMonth year month

instance (year : Int) (month day : Nat) : Decidable (IsDay year month day) := by unfold IsDay; infer_instance

/-- The numbers name a time of a day; every minute may have a 60th second. -/
def IsTimeOfDay (hour minute second nano : Nat) : Prop :=
  hour < 24 ∧ minute < 60 ∧ second ≤ 60 ∧ nano < 1000000000

instance (hour minute second nano : Nat) : Decidable (IsTimeOfDay hour minute second nano) := by
  unfold IsTimeOfDay; infer_instance

/-- A point in time, in UTC. -/
structure Timestamp where
  year : Int
  month : Nat
  day : Nat
  hour : Nat
  minute : Nat
  second : Nat
  nano : Nat
  isDay : IsDay year month day
  isTimeOfDay : IsTimeOfDay hour minute second nano
deriving DecidableEq

namespace Timestamp

/-- The start of the year 1970. -/
def epoch : Timestamp := ⟨1970, 1, 1, 0, 0, 0, 0, by decide, by decide⟩

instance : Inhabited Timestamp := ⟨epoch⟩

/-- The point in time of the given numbers, if they name one. -/
def make? (year : Int) (month day hour minute second nano : Nat) : Option Timestamp :=
  if hd : IsDay year month day then
    if ht : IsTimeOfDay hour minute second nano then
      some ⟨year, month, day, hour, minute, second, nano, hd, ht⟩
    else none
  else none

/-! ### Order -/

/-- The numbers of a point in time, the largest unit first. -/
def fields (t : Timestamp) : List Int := [t.year, t.month, t.day, t.hour, t.minute, t.second, t.nano]

instance : LT Timestamp := ⟨fun a b => a.fields < b.fields⟩
instance (a b : Timestamp) : Decidable (a < b) := inferInstanceAs (Decidable (a.fields < b.fields))
instance : LE Timestamp := ⟨fun a b => ¬ b < a⟩
instance (a b : Timestamp) : Decidable (a ≤ b) := inferInstanceAs (Decidable (¬ b < a))

/-- The earlier of two points in time. -/
def earlier (a b : Timestamp) : Timestamp := if b < a then b else a

/-- The later of two points in time. -/
def later (a b : Timestamp) : Timestamp := if a < b then b else a

section Order

variable {a b c : Timestamp}

theorem le_refl (a : Timestamp) : a ≤ a := List.lt_irrefl a.fields

theorem le_trans (hab : a ≤ b) (hbc : b ≤ c) : a ≤ c := List.le_trans hab hbc

theorem le_of_lt (h : a < b) : a ≤ b := List.le_of_lt h

theorem earlier_le_left (a b : Timestamp) : a.earlier b ≤ a := by
  unfold earlier
  split
  · next h => exact le_of_lt h
  · exact le_refl a

theorem earlier_le_right (a b : Timestamp) : a.earlier b ≤ b := by
  unfold earlier
  split
  · exact le_refl b
  · next h => exact h

theorem le_later_left (a b : Timestamp) : a ≤ a.later b := by
  unfold later
  split
  · next h => exact le_of_lt h
  · exact le_refl a

theorem le_later_right (a b : Timestamp) : b ≤ a.later b := by
  unfold later
  split
  · exact le_refl b
  · next h => exact h

end Order

/-! ### Neighbouring days -/

/-- The day after a day. -/
def nextDay (year : Int) (month day : Nat) : Int × Nat × Nat :=
  if day < daysInMonth year month then (year, month, day + 1)
  else if month < 12 then (year, month + 1, 1)
  else (year + 1, 1, 1)

/-- The day before a day. -/
def previousDay (year : Int) (month day : Nat) : Int × Nat × Nat :=
  if 1 < day then (year, month, day - 1)
  else if 1 < month then (year, month - 1, daysInMonth year (month - 1))
  else (year - 1, 12, 31)

/-- The point in time that a clock shows as `t` when it is ahead of UTC by `minutes`, of which there are fewer than a
day's. -/
def shift? (t : Timestamp) (minutes : Int) : Option Timestamp :=
  let total : Int := t.hour * 60 + t.minute - minutes
  let (year, month, day) :=
    if total < 0 then previousDay t.year t.month t.day
    else if total < 1440 then (t.year, t.month, t.day)
    else nextDay t.year t.month t.day
  let ofDay := (total % 1440).toNat
  make? year month day (ofDay / 60) (ofDay % 60) t.second t.nano

end Timestamp

end FleetAtlas
