import FleetAtlas.Text.Blank
import FleetAtlas.Time.Timestamp

/-!
# The text of a point in time

* `Timestamp.toText`: `YYYY-MM-DDTHH:MM:SSZ` with 0, 3, 6 or 9 digits of a fraction, as few as are exact;
* `Timestamp.ofText?`: reads such a text and its relatives: any offset, a blank in place of `T`, blanks between the
  parts of the date and of the time, digits of a fraction beyond the ninth.
-/

namespace FleetAtlas

namespace Timestamp

open FleetAtlas.Text

/-! ### Writing -/

/-- The digits of a number, with zeros in front up to a width. -/
def padded (width n : Nat) : List Char :=
  let digits := (Nat.repr n).toList
  List.replicate (width - digits.length) '0' ++ digits

/-- A year: four digits, with a sign when it has more or lies before the year 0. -/
def writeYear (year : Int) : List Char :=
  if year < 0 then '-' :: padded 4 year.natAbs
  else if 9999 < year then '+' :: padded 4 year.natAbs
  else padded 4 year.natAbs

/-- A fraction of a second in the shortest of 0, 3, 6 and 9 digits that is exact. -/
def writeFraction (nano : Nat) : List Char :=
  if nano = 0 then []
  else if nano % 1000000 = 0 then '.' :: padded 3 (nano / 1000000)
  else if nano % 1000 = 0 then '.' :: padded 6 (nano / 1000)
  else '.' :: padded 9 nano

/-- The characters of a point in time, in UTC. -/
def writeChars (t : Timestamp) : List Char :=
  writeYear t.year ++ '-' :: padded 2 t.month ++ '-' :: padded 2 t.day ++ 'T' :: padded 2 t.hour
    ++ ':' :: padded 2 t.minute ++ ':' :: padded 2 t.second ++ writeFraction t.nano ++ ['Z']

/-- The text of a point in time, in UTC. -/
def toText (t : Timestamp) : String := String.ofList t.writeChars

/-! ### Reading -/

/-- The number that digits write. -/
def digitsValue (ds : List Char) : Nat := ds.foldl (fun n c => n * 10 + (c.toNat - '0'.toNat)) 0

/-- A number of at least one and at most `width` digits. -/
def readNumber? (width : Nat) (cs : List Char) : Option (Nat × List Char) :=
  let ds := (cs.take width).takeWhile Char.isDigit
  if ds.isEmpty then none else some (digitsValue ds, cs.drop ds.length)

/-- A year: up to four digits, or a sign and any number of them. -/
def readYear? (cs : List Char) : Option (Int × List Char) :=
  match trimStart cs with
  | '-' :: rest => (readNumber? rest.length rest).map fun r => (-(r.1 : Int), r.2)
  | '+' :: rest => (readNumber? rest.length rest).map fun r => ((r.1 : Int), r.2)
  | rest => (readNumber? 4 rest).map fun r => ((r.1 : Int), r.2)

/-- A mark, blanks before it and after it, and a number of up to two digits. -/
def readPart? (mark : Char) (cs : List Char) : Option (Nat × List Char) :=
  match trimStart cs with
  | c :: rest => if c = mark then readNumber? 2 (trimStart rest) else none
  | [] => none

/-- A fraction of a second in nanoseconds, if there is one. -/
def readFraction? (cs : List Char) : Option (Nat × List Char) :=
  match cs with
  | '.' :: rest =>
    (readNumber? 9 rest).map fun (n, rest') =>
      (n * Nat.pow 10 (9 - (rest.length - rest'.length)), rest'.dropWhile Char.isDigit)
  | _ => some (0, cs)

/-- Two digits, of which the first is at most `top`. -/
def readPair? (top : Char) (cs : List Char) : Option (Nat × List Char) :=
  match cs with
  | a :: b :: rest =>
    if a.isDigit ∧ a ≤ top ∧ b.isDigit then some (digitsValue [a, b], rest) else none
  | _ => none

/-- The name of UTC at the start, in any case. -/
def dropUtc? (cs : List Char) : Option (List Char) :=
  match cs with
  | a :: b :: c :: rest =>
    if a.toUpper = 'U' ∧ b.toUpper = 'T' ∧ c.toUpper = 'C' then some rest else none
  | _ => none

/-- Hours and minutes after a sign, in minutes. -/
def readSpan? (cs : List Char) : Option (Nat × List Char) := do
  let (hours, rest) ← readPair? '9' cs
  let (minutes, rest) ← readPair? '5' (rest.dropWhile fun c => c = ':' || isBlank c)
  return (hours * 60 + minutes, rest)

/-- The minutes by which the clock is ahead of UTC. -/
def readOffset? (cs : List Char) : Option (Int × List Char) :=
  match dropUtc? cs with
  | some rest => some (0, rest)
  | none =>
    match cs with
    | 'Z' :: rest | 'z' :: rest => some (0, rest)
    | '+' :: rest => (readSpan? rest).map fun r => ((r.1 : Int), r.2)
    | '-' :: rest | '−' :: rest => (readSpan? rest).map fun r => (-(r.1 : Int), r.2)
    | _ => none

/-- The mark between a date and a time. -/
def dropMiddle? (cs : List Char) : Option (List Char) :=
  match cs with
  | c :: rest => if c = 'T' ∨ c = 't' ∨ c = ' ' then some rest else none
  | [] => none

/-- The point in time that a text names, if its offset is shorter than a day. -/
def ofText? (text : String) : Option Timestamp := do
  let (year, cs) ← readYear? text.toList
  let (month, cs) ← readPart? '-' cs
  let (day, cs) ← readPart? '-' cs
  let cs ← dropMiddle? cs
  let (hour, cs) ← readNumber? 2 (trimStart cs)
  let (minute, cs) ← readPart? ':' cs
  let (second, cs) ← readPart? ':' cs
  let (nano, cs) ← readFraction? cs
  let (offset, cs) ← readOffset? (trimStart cs)
  if (trimStart cs).isEmpty ∧ offset.natAbs < 1440 then
    (make? year month day hour minute second nano).bind (·.shift? offset)
  else none

end Timestamp

end FleetAtlas
