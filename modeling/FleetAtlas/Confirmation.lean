import FleetAtlas.Text.Blank

/-!
# Confirmation

Dropping all data takes a confirmation: `Confirmation.answer?` is the first line of what was typed, and
`Confirmation.confirms` says whether it is a `yes`.
-/

namespace FleetAtlas.Confirmation

/-- A line without the carriage return at its end. -/
def withoutReturn (line : List Char) : List Char :=
  if line.getLast? = some '\x0d' then line.dropLast else line

/-- The first line of a text, without its end; none when there is no text. -/
def answer? (input : List Char) : Option (List Char) :=
  let line := input.takeWhile (· ≠ '\n')
  if input.isEmpty then none
  else if line.length < input.length then some (withoutReturn line)
  else some line

/-- Whether an answer is `yes`, blanks around it apart. -/
def confirms (answer : Option (List Char)) : Bool := answer.map Text.trim = some "yes".toList

end FleetAtlas.Confirmation
