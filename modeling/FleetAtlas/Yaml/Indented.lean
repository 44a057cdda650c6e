import FleetAtlas.Yaml.Quoted

/-!
# Indented scalars

A scalar after a bar or a greater-than sign consists of the lines that are indented more than what surrounds it.

* `IndentedHeader`: what stands behind the sign: how the end is treated, and the indentation if it is given;
* `spanIndentation?`: the indentation of a line and the empty lines before it;
* `IndentedLine`, `readLines?`: the lines;
* `IndentedHeader.text`: the text of lines; after a greater-than sign they are folded unless one of them begins with a blank;
* `readIndented?`: a scalar from its sign on.
-/

namespace FleetAtlas.Yaml

/-- What becomes of the line ends behind the last line. -/
inductive Chomping where
  /-- None is kept. -/
  | strip
  /-- The first is kept. -/
  | clip
  | keep
deriving DecidableEq, Repr

/-- What stands in the line of the sign. -/
structure IndentedHeader where
  folded : Bool
  chomping : Chomping
  /-- How much more than its surroundings the scalar is indented. -/
  increment : Option Nat
deriving DecidableEq, Repr

/-- A line, the line end behind it if there is one, and those of empty lines that follow. -/
structure IndentedLine where
  text : List Char
  ending : Option Char
  more : List Char
deriving DecidableEq, Repr

/-! ### The line of the sign -/

/-- How the end is treated, if it is said here. -/
def readChomping? : List Char → Option (Chomping × List Char)
  | '+' :: rest => some (.keep, rest)
  | '-' :: rest => some (.strip, rest)
  | _ => none

/-- The increment of the indentation, if it is given here, which is a digit other than zero. -/
def readIncrement? : List Char → Option (Option Nat × List Char)
  | [] => some (none, [])
  | c :: rest =>
    if c.isDigit then if c = '0' then none else some (digit? 10 c, rest) else some (none, c :: rest)

/-- What stands behind the sign, the two parts in either order, and what follows the line. -/
def readHeader? (folded : Bool) (cs : List Char) : Option (IndentedHeader × List Char) := do
  match readChomping? cs with
  | some (chomping, rest) =>
    let (increment, rest) ← readIncrement? rest
    return (⟨folded, chomping, increment⟩, ← skipLine? rest)
  | none =>
    let (increment, rest) ← readIncrement? cs
    let (chomping, rest) := if increment.isSome then (readChomping? rest).getD (.clip, rest) else (.clip, rest)
    return (⟨folded, chomping, increment⟩, ← skipLine? rest)

/-! ### Lines -/

/-- The indentation in front of a line, up to a bound if there is one, and the empty lines before it. -/
structure Indentation where
  ends : List Char
  column : Nat
  /-- The largest indentation of all the lines. -/
  widest : Nat

/-- Reads the indentation in front of a line and the empty lines before it; a tab cannot be a part of it. -/
def spanIndentation? (bound : Option Nat) (column widest : Nat) : List Char → Option (Indentation × List Char)
  | [] => some (⟨[], column, max widest column⟩, [])
  | c :: rest =>
    let inside := bound.all (column < ·)
    if c = ' ' && inside then spanIndentation? bound (column + 1) widest rest
    else if c = '\t' && inside then none
    else if isLineEnd c then
      (spanIndentation? bound 0 (max widest column) rest).map fun (i, rest) => ({ i with ends := c :: i.ends }, rest)
    else some (⟨[], column, max widest column⟩, c :: rest)

/-- The lines with an indentation, at most so many, from a column on, and what follows. -/
def readLines? (indent : Nat) : Nat → Nat → List Char → Option (List IndentedLine × List Char)
  | 0, _, cs => some ([], cs)
  | n + 1, column, cs =>
    if column = indent && !cs.isEmpty then
      match cs.dropWhile (!isLineEnd ·) with
      | [] => some ([⟨cs, none, []⟩], [])
      | e :: rest => do
        let (i, rest) ← spanIndentation? (some indent) 0 0 rest
        let (lines, rest) ← readLines? indent n i.column rest
        return (⟨cs.takeWhile (!isLineEnd ·), some e, i.ends⟩ :: lines, rest)
    else some ([], cs)

/-! ### Text -/

namespace IndentedLine

/-- Whether a line begins with a blank. -/
def isSpaced (l : IndentedLine) : Bool := l.text.head?.any isBlank

/-- What is read between two lines. -/
def between (folded : Bool) (l m : IndentedLine) : List Char :=
  if folded && l.ending = some '\n' && !l.isSpaced && !m.isSpaced then if l.more.isEmpty then [' '] else l.more
  else l.ending.toList ++ l.more

/-- The text of lines without what follows the last. -/
def join (folded : Bool) : List IndentedLine → List Char
  | [] => []
  | [l] => l.text
  | l :: m :: rest => l.text ++ between folded l m ++ join folded (m :: rest)

/-- What is kept behind the last line. -/
def tail (l : IndentedLine) : Chomping → List Char
  | .strip => []
  | .clip => l.ending.toList
  | .keep => l.ending.toList ++ l.more

end IndentedLine

/-- The text of lines, the first of which follows some empty lines. -/
def IndentedHeader.text (h : IndentedHeader) (ends : List Char) (lines : List IndentedLine) : List Char :=
  match lines.getLast? with
  | none => if h.chomping = .keep then ends else []
  | some l => ends ++ IndentedLine.join h.folded lines ++ l.tail h.chomping

/-- The text of a scalar from behind its sign on, and what follows; the surroundings have an indentation or none. -/
def readIndented? (folded : Bool) (outer : Option Nat) (cs : List Char) : Option (List Char × List Char) := do
  let (header, rest) ← readHeader? folded cs
  let given := header.increment.map fun n => outer.getD 0 + n
  let (i, rest) ← spanIndentation? given 0 0 rest
  let indent := given.getD (max i.widest (max 1 (outer.elim 0 (· + 1))))
  let (lines, rest) ← readLines? indent (rest.length + 1) i.column rest
  return (header.text i.ends lines, rest)

end FleetAtlas.Yaml
