import Mathlib.Data.List.TakeWhile

/-!
# Where a text is cut

* `Text.Halts p rest`: what follows a run of characters that have a property, so that the run does not go on;
* `Text.takeWhile_append`, `Text.dropWhile_append`: the run is what is taken, and what follows it is left;
* `Text.run_inj`: **a text is cut in one way only** after such a run; `Text.mark_inj`: so is one at its first mark;
* `Text.isDigit_of_mem_repr`, `Text.ofDigitChars_repr`: a number is written as a run of digits, from which it is read back.
-/

namespace FleetAtlas.Text

/-! ### Runs -/

/-- The next character, if there is one, does not have the property. -/
def Halts (p : Char → Bool) (rest : List Char) : Prop := ∀ c ∈ rest.head?, p c = false

section Runs

variable {p : Char → Bool} {run run' rest rest' : List Char}

theorem halts_nil : Halts p [] := nofun

theorem halts_cons {c : Char} (h : p c = false) (rest : List Char) : Halts p (c :: rest) := by
  intro d hd
  obtain rfl := Option.some.inj hd
  exact h

theorem halts_dropWhile (p : Char → Bool) (cs : List Char) : Halts p (cs.dropWhile p) := by
  intro c hc
  have hnot := List.head?_dropWhile_not p cs
  rw [Option.mem_def.mp hc] at hnot
  exact hnot

theorem Halts.takeWhile (h : Halts p rest) : rest.takeWhile p = [] := by
  cases rest with
  | nil => rfl
  | cons c rest =>
    have hc : p c = false := h c rfl
    simp [hc]

theorem Halts.dropWhile (h : Halts p rest) : rest.dropWhile p = rest := by
  cases rest with
  | nil => rfl
  | cons c rest =>
    have hc : p c = false := h c rfl
    simp [hc]

/-- The run is what is taken. -/
theorem takeWhile_append (hrun : ∀ c ∈ run, p c = true) (hrest : Halts p rest) : (run ++ rest).takeWhile p = run := by
  rw [List.takeWhile_append_of_pos hrun, hrest.takeWhile, List.append_nil]

/-- What follows the run is left. -/
theorem dropWhile_append (hrun : ∀ c ∈ run, p c = true) (hrest : Halts p rest) : (run ++ rest).dropWhile p = rest := by
  rw [List.dropWhile_append_of_pos hrun, hrest.dropWhile]

/-- **A text is cut in one way only** into a run and what follows it. -/
theorem run_inj (hrun : ∀ c ∈ run, p c = true) (hrest : Halts p rest) (hrun' : ∀ c ∈ run', p c = true)
    (hrest' : Halts p rest') (h : run ++ rest = run' ++ rest') : run = run' ∧ rest = rest' := by
  constructor
  · rw [← takeWhile_append hrun hrest, h, takeWhile_append hrun' hrest']
  · rw [← dropWhile_append hrun hrest, h, dropWhile_append hrun' hrest']

end Runs

/-! ### Marks -/

theorem ne_mark_of_notMem {mark : Char} {cs : List Char} (h : mark ∉ cs) : ∀ c ∈ cs, decide (c ≠ mark) = true := by
  intro c hc
  have hne : c ≠ mark := fun e => h (e ▸ hc)
  exact decide_eq_true hne

theorem halts_mark (mark : Char) (rest : List Char) : Halts (fun c => decide (c ≠ mark)) (mark :: rest) :=
  halts_cons (by simp) rest

/-- What comes before the first mark, and what comes after it. -/
theorem mark_inj (mark : Char) {before before' rest rest' : String} (h : mark ∉ before.toList) (h' : mark ∉ before'.toList)
    (heq : before ++ String.singleton mark ++ rest = before' ++ String.singleton mark ++ rest') :
    before = before' ∧ rest = rest' := by
  have hlists : before.toList ++ mark :: rest.toList = before'.toList ++ mark :: rest'.toList := by
    simpa [String.toList_append] using congrArg String.toList heq
  obtain ⟨hbefore, hafter⟩ := run_inj (ne_mark_of_notMem h) (halts_mark mark _) (ne_mark_of_notMem h')
    (halts_mark mark _) hlists
  exact ⟨String.toList_inj.mp hbefore, String.toList_inj.mp (List.cons.inj hafter).2⟩

/-! ### Digits -/

theorem isDigit_of_mem_repr {n : Nat} : ∀ c ∈ (Nat.repr n).toList, c.isDigit = true := by
  intro c hc
  rw [Nat.toList_repr] at hc
  exact Nat.isDigit_of_mem_toDigits (by decide) (by decide) hc

/-- A character that is no digit is in the text of no number. -/
theorem notMem_repr {c : Char} (h : c.isDigit = false) (n : Nat) : c ∉ (Nat.repr n).toList := by
  intro hc
  exact absurd (isDigit_of_mem_repr c hc) (by simp [h])

/-- A number is read back from its digits. -/
theorem ofDigitChars_repr (n : Nat) : Nat.ofDigitChars 10 (Nat.repr n).toList 0 = n := by
  rw [Nat.toList_repr, Nat.ofDigitChars_ten_toDigits]

/-- The number that digits write, one digit after the other. -/
theorem foldl_digits (ds : List Char) :
    ds.foldl (fun n c => n * 10 + (c.toNat - '0'.toNat)) 0 = Nat.ofDigitChars 10 ds 0 := by
  rw [Nat.ofDigitChars_eq_foldl]
  congr 1
  funext n c
  omega

end FleetAtlas.Text
