import FleetAtlas.Yaml.Character

/-!
# Gaps between words

A scalar without indentation of its own may go on over several lines. `Gap` is what stands between two of its words:
blanks, or blanks and line ends; `Gap.folded` is how it is read: a single line feed as a blank, and further line ends
as they are.
-/

namespace FleetAtlas.Yaml

/-- What stands between two words of a scalar. -/
structure Gap where
  /-- Whether a line ends in it. -/
  broken : Bool
  /-- Whether a backslash stands before its first line end. -/
  escaped : Bool
  /-- The blanks before the first line end. -/
  blanks : List Char
  /-- The line ends, without an escaped one. -/
  ends : List Char
  /-- How many blanks follow the last line end. -/
  column : Nat
deriving DecidableEq, Repr

namespace Gap

/-- Nothing between two characters of a word. -/
def empty : Gap := ⟨false, false, [], [], 0⟩

/-- An escaped line end. -/
def escapedEnd : Gap := ⟨true, true, [], [], 0⟩

/-- Whether there is nothing in it. -/
def isEmpty (g : Gap) : Bool := !g.broken && g.blanks.isEmpty

/-- The gap with one more character. -/
def add (g : Gap) (c : Char) : Gap :=
  if isLineEnd c then { g with broken := true, ends := g.ends ++ [c], column := 0 }
  else if g.broken then { g with column := g.column + 1 }
  else { g with blanks := g.blanks ++ [c] }

/-- How line ends are read when lines are joined. -/
def foldEnds : List Char → List Char
  | ['\n'] => [' ']
  | '\n' :: more => more
  | ends => ends

/-- How it is read. -/
def folded (g : Gap) : List Char := if g.broken then if g.escaped then g.ends else foldEnds g.ends else g.blanks

example : (empty.add '\n').folded = [' '] := by decide

example : ((empty.add '\n').add '\n').folded = ['\n'] := by decide

/-- Whether a mark between documents stands behind it at the start of a line. -/
def atDocumentMark (g : Gap) (cs : List Char) : Bool := g.broken && g.column = 0 && Yaml.atDocumentMark cs

end Gap

end FleetAtlas.Yaml
