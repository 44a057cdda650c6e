import FleetAtlas.Proofs.Text.Cut
import FleetAtlas.Time.Text
import Mathlib.Algebra.Group.Nat.Defs

/-!
# The text of a point in time reads back

* `digitsValue_padded`, `readNumber?_padded`: the digits of a number read as that number, up to a mark;
* `readYear?_writeYear`, `readFraction?_writeFraction`, `readOffset?_utc`: so do the other parts;
* `Timestamp.ofText?_toText`: **so does the whole**.
-/

namespace FleetAtlas.Timestamp

open FleetAtlas.Text

/-! ### Digits -/

theorem digitsValue_padded (width n : Nat) : digitsValue (padded width n) = n := by
  rw [digitsValue, Text.foldl_digits, padded, Nat.ofDigitChars_append, Nat.ofDigitChars_replicate_zero, Nat.toList_repr, Nat.mul_zero,
    Nat.ofDigitChars_ten_toDigits]

theorem isDigit_of_mem_padded {width n : Nat} {c : Char} (h : c ∈ padded width n) : c.isDigit = true := by
  rcases List.mem_append.mp h with h | h
  · rw [(List.mem_replicate.mp h).2]
    rfl
  · exact Text.isDigit_of_mem_repr c h

theorem length_padded {width n : Nat} (h0 : 0 < width) (h : n < 10 ^ width) : (padded width n).length = width := by
  have hl : (Nat.toDigits 10 n).length ≤ width := (Nat.length_toDigits_le_iff (by decide) h0).mpr h
  rw [padded, List.length_append, List.length_replicate, Nat.toList_repr]
  omega

theorem padded_ne_nil (width n : Nat) : padded width n ≠ [] := by
  rw [padded, Nat.toList_repr]
  simp

/-- The first character of a number is a digit. -/
theorem exists_padded_eq_cons (width n : Nat) : ∃ c cs, padded width n = c :: cs ∧ c.isDigit = true := by
  cases h : padded width n with
  | nil => exact absurd h (padded_ne_nil width n)
  | cons c cs => exact ⟨c, cs, rfl, isDigit_of_mem_padded (by rw [h]; exact List.mem_cons_self)⟩

theorem takeWhile_padded (width n : Nat) (rest : List Char) :
    (padded width n ++ rest).takeWhile Char.isDigit = padded width n ++ rest.takeWhile Char.isDigit :=
  List.takeWhile_append_of_pos fun _ => isDigit_of_mem_padded

/-- A number of the full width is read whatever follows. -/
theorem readNumber?_padded {width n : Nat} (h0 : 0 < width) (h : n < 10 ^ width) (rest : List Char) :
    readNumber? width (padded width n ++ rest) = some (n, rest) := by
  have hl := length_padded h0 h
  have ht : ((padded width n ++ rest).take width).takeWhile Char.isDigit = padded width n := by
    rw [List.take_append_of_le_length (by omega), List.take_of_length_le (by omega)]
    have := takeWhile_padded width n []
    simpa using this
  unfold readNumber?
  simp only [ht, digitsValue_padded, List.drop_left]
  simp [padded_ne_nil]

/-- A number of any width is read up to a mark that is no digit. -/
theorem readNumber?_padded_of_mark (width n : Nat) {mark : Char} (hmark : mark.isDigit = false) (rest : List Char)
    (room : Nat) (hroom : (padded width n).length ≤ room) :
    readNumber? room (padded width n ++ mark :: rest) = some (n, mark :: rest) := by
  have ht : ((padded width n ++ mark :: rest).take room).takeWhile Char.isDigit = padded width n := by
    rw [List.take_append, List.take_of_length_le hroom, takeWhile_padded]
    cases room - (padded width n).length with
    | zero => simp
    | succ k => simp [hmark]
  unfold readNumber?
  simp only [ht, digitsValue_padded, List.drop_left]
  simp [padded_ne_nil]

/-! ### Parts -/

theorem isBlank_eq_false_of_isDigit {c : Char} (h : c.isDigit = true) : isBlank c = false := by
  have h1 : 48 ≤ c.toNat ∧ c.toNat ≤ 57 := by
    simpa [Char.isDigit, UInt32.le_iff_toNat_le] using h
  unfold isBlank
  simp
  omega

theorem trimStart_cons {c : Char} (h : isBlank c = false) (cs : List Char) : trimStart (c :: cs) = c :: cs := by
  simp [trimStart, h]

theorem trimStart_padded (width n : Nat) (rest : List Char) :
    trimStart (padded width n ++ rest) = padded width n ++ rest := by
  obtain ⟨c, cs, e, hc⟩ := exists_padded_eq_cons width n
  rw [e]
  exact trimStart_cons (isBlank_eq_false_of_isDigit hc) _

theorem readPart?_padded {mark : Char} (hmark : isBlank mark = false) {n : Nat} (h : n < 100) (rest : List Char) :
    readPart? mark (mark :: (padded 2 n ++ rest)) = some (n, rest) := by
  unfold readPart?
  rw [trimStart_cons hmark]
  simp only [if_true, trimStart_padded]
  exact readNumber?_padded (by decide) h rest

theorem readYear?_writeYear (year : Int) {mark : Char} (hmark : mark.isDigit = false) (rest : List Char) :
    readYear? (writeYear year ++ mark :: rest) = some (year, mark :: rest) := by
  have hroom : (padded 4 year.natAbs).length ≤ (padded 4 year.natAbs ++ mark :: rest).length := by simp
  unfold writeYear
  split
  · next h =>
    unfold readYear?
    rw [List.cons_append, trimStart_cons (by decide)]
    simp only [readNumber?_padded_of_mark 4 _ hmark rest _ hroom, Option.map_some, Option.some.injEq, Prod.mk.injEq,
      and_true]
    omega
  · split
    · unfold readYear?
      rw [List.cons_append, trimStart_cons (by decide)]
      simp only [readNumber?_padded_of_mark 4 _ hmark rest _ hroom, Option.map_some, Option.some.injEq, Prod.mk.injEq,
        and_true]
      omega
    · -- four digits, the first of which is no sign
      obtain ⟨c, cs, e, hc⟩ := exists_padded_eq_cons 4 year.natAbs
      have hread : readNumber? 4 (padded 4 year.natAbs ++ mark :: rest) = some (year.natAbs, mark :: rest) :=
        readNumber?_padded (by decide) (by omega) _
      unfold readYear?
      rw [trimStart_padded, e]
      rw [e] at hread
      split
      · next h => rw [List.cons_append, List.cons.injEq] at h; rw [h.1] at hc; exact absurd hc (by decide)
      · next h => rw [List.cons_append, List.cons.injEq] at h; rw [h.1] at hc; exact absurd hc (by decide)
      · rw [hread]
        simp only [Option.map_some, Option.some.injEq, Prod.mk.injEq, and_true]
        omega

/-- A fraction of a number of digits is read up to a mark that is no digit. -/
theorem readFraction?_padded {width n : Nat} (h0 : 0 < width) (h9 : width ≤ 9) (h : n < 10 ^ width) {mark : Char}
    (hmark : mark.isDigit = false) (rest : List Char) :
    readFraction? ('.' :: (padded width n ++ mark :: rest)) = some (n * 10 ^ (9 - width), mark :: rest) := by
  have hl := length_padded h0 h
  have hread := readNumber?_padded_of_mark width n hmark rest 9 (by rw [hl]; exact h9)
  unfold readFraction?
  simp only [hread, Option.map_some]
  have e : (padded width n ++ mark :: rest).length - (mark :: rest).length = width := by
    rw [List.length_append, hl]
    omega
  rw [e, List.dropWhile_cons_of_neg (by simp [hmark])]
  rfl

theorem readFraction?_writeFraction {nano : Nat} (h : nano < 1000000000) {mark : Char} (hmark : mark.isDigit = false)
    (hdot : mark ≠ '.') (rest : List Char) :
    readFraction? (writeFraction nano ++ mark :: rest) = some (nano, mark :: rest) := by
  unfold writeFraction
  split
  · next h0 =>
    rw [List.nil_append, h0]
    unfold readFraction?
    split
    · next e => exact absurd (List.cons.inj e).1 hdot
    · rfl
  · split
    · rw [List.cons_append, readFraction?_padded (by decide) (by decide) (by omega) hmark]
      simp only [Option.some.injEq, Prod.mk.injEq, and_true]
      omega
    · split
      · rw [List.cons_append, readFraction?_padded (by decide) (by decide) (by omega) hmark]
        simp only [Option.some.injEq, Prod.mk.injEq, and_true]
        omega
      · rw [List.cons_append, readFraction?_padded (by decide) (by decide) (by omega) hmark]
        simp

theorem readOffset?_utc : readOffset? (trimStart ['Z']) = some (0, []) := by
  rw [trimStart_cons (by decide)]
  rfl

/-! ### The whole -/

theorem make?_self (t : Timestamp) : make? t.year t.month t.day t.hour t.minute t.second t.nano = some t := by
  unfold make?
  rw [dif_pos t.isDay, dif_pos t.isTimeOfDay]

theorem shift?_zero (t : Timestamp) : t.shift? 0 = some t := by
  obtain ⟨h1, h2, -, -⟩ := t.isTimeOfDay
  have hlow : ¬ ((t.hour : Int) * 60 + t.minute - 0 < 0) := by omega
  have hhigh : (t.hour : Int) * 60 + t.minute - 0 < 1440 := by omega
  have hday : (((t.hour : Int) * 60 + t.minute - 0) % 1440).toNat = t.hour * 60 + t.minute := by omega
  unfold shift?
  simp only [hlow, hhigh, hday, if_false, if_true]
  rw [show (t.hour * 60 + t.minute) / 60 = t.hour by omega, show (t.hour * 60 + t.minute) % 60 = t.minute by omega]
  exact make?_self t

/-- **The text of a point in time names it.** -/
theorem ofText?_toText (t : Timestamp) : ofText? t.toText = some t := by
  obtain ⟨-, -, -, hmonths, -, hdays⟩ := t.isDay
  obtain ⟨hhours, hminutes, hseconds, hnanos⟩ := t.isTimeOfDay
  have hdays : t.day < 100 := by
    have : daysInMonth t.year t.month ≤ 31 := by unfold daysInMonth; split <;> split <;> omega
    omega
  -- what is left to read after each part
  obtain ⟨afterNano, hZ⟩ : ∃ cs, cs = ['Z'] := ⟨_, rfl⟩
  obtain ⟨afterSecond, hS⟩ : ∃ cs, cs = writeFraction t.nano ++ afterNano := ⟨_, rfl⟩
  obtain ⟨afterMinute, hM⟩ : ∃ cs, cs = ':' :: (padded 2 t.second ++ afterSecond) := ⟨_, rfl⟩
  obtain ⟨afterHour, hH⟩ : ∃ cs, cs = ':' :: (padded 2 t.minute ++ afterMinute) := ⟨_, rfl⟩
  obtain ⟨afterDay, hD⟩ : ∃ cs, cs = padded 2 t.hour ++ afterHour := ⟨_, rfl⟩
  obtain ⟨afterMonth, hO⟩ : ∃ cs, cs = '-' :: (padded 2 t.day ++ 'T' :: afterDay) := ⟨_, rfl⟩
  obtain ⟨afterYear, hY⟩ : ∃ cs, cs = padded 2 t.month ++ afterMonth := ⟨_, rfl⟩
  have htext : t.toText.toList = writeYear t.year ++ '-' :: afterYear := by
    unfold toText writeChars
    simp only [String.toList_ofList, List.append_assoc, List.cons_append, hY, hO, hD, hH, hM, hS, hZ]
  have hyear : readYear? t.toText.toList = some (t.year, '-' :: afterYear) := by
    rw [htext]
    exact readYear?_writeYear t.year (by decide) afterYear
  have hmonth : readPart? '-' ('-' :: afterYear) = some (t.month, afterMonth) := by
    rw [hY]
    exact readPart?_padded (by decide) (by omega) afterMonth
  have hday : readPart? '-' afterMonth = some (t.day, 'T' :: afterDay) := by
    rw [hO]
    exact readPart?_padded (by decide) hdays ('T' :: afterDay)
  have hhour : readNumber? 2 (trimStart afterDay) = some (t.hour, afterHour) := by
    rw [hD, trimStart_padded]
    exact readNumber?_padded (by decide) (by omega) afterHour
  have hminute : readPart? ':' afterHour = some (t.minute, afterMinute) := by
    rw [hH]
    exact readPart?_padded (by decide) (by omega) afterMinute
  have hsecond : readPart? ':' afterMinute = some (t.second, afterSecond) := by
    rw [hM]
    exact readPart?_padded (by decide) (by omega) afterSecond
  have hnano : readFraction? afterSecond = some (t.nano, afterNano) := by
    rw [hS, hZ]
    exact readFraction?_writeFraction hnanos (by decide) (by decide) []
  have hoffset : readOffset? (trimStart afterNano) = some (0, []) := by
    rw [hZ]
    exact readOffset?_utc
  unfold ofText?
  simp only [Option.bind_eq_bind, hyear, hmonth, hday, hhour, hminute, hsecond, hnano, hoffset, Option.bind_some,
    dropMiddle?, true_or, if_true]
  rw [make?_self, Option.bind_some, shift?_zero]
  rfl

end FleetAtlas.Timestamp
