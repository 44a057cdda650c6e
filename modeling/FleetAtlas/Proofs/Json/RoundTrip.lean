import FleetAtlas.Json.Reader
import FleetAtlas.Json.Writer
import FleetAtlas.Proofs.Dictionary
import FleetAtlas.Proofs.Text.Cut
import Mathlib.Tactic.SplitIfs

/-!
# Values that are written are read back

* `Json.Plain`: the numbers of a value are integers, and the names of its fields are in order;
* `Json.Text.decode_encode`, `Json.readNumber_writeInt`: strings and numbers are read back, whatever follows them;
* `Json.depth`: how many lists and objects are around each other in a value, never more than its text has characters
  (`Json.depth_le_length`);
* `Json.Stops`: what follows a value in a text, so that no number goes on;
* `Json.readValue_writeChars`: **a plain value is read back, whatever follows it, exactly if it is no deeper than the reader
  goes**; `Json.readWithin?_write`: so is a whole text;
* `Json.newline_notMem_writeChars`: a value is written on one line.

The reader takes as many parts as the text has characters, which is enough for every value that it writes.
-/

namespace FleetAtlas.Json

/-! ### Strings -/

namespace Text

theorem hexValue?_hexDigit : ∀ n < 16, hexValue? (hexDigit n) = some n := by decide

theorem hex4?_hexDigit {n : Nat} (h : n < 0x20) : hex4? '0' '0' (hexDigit (n / 16)) (hexDigit (n % 16)) = some n := by
  have h0 : hexValue? '0' = some 0 := by decide
  simp only [hex4?, h0, hexValue?_hexDigit (n / 16) (by omega), hexValue?_hexDigit (n % 16) (by omega), bind,
    Option.bind_some, pure]
  congr 1
  omega

/-- **How a character is written**: as a short escape, by its number, or as it is. -/
theorem encodeChar_cases (c : Char) :
    (∃ e, encodeChar c = ['\\', e] ∧ shortEscape? e = some c) ∨
    (c.toNat < 0x20 ∧ encodeChar c = ['\\', 'u', '0', '0', hexDigit (c.toNat / 16), hexDigit (c.toNat % 16)]) ∨
    (c ≠ '"' ∧ c ≠ '\\' ∧ 0x20 ≤ c.toNat ∧ encodeChar c = [c]) := by
  unfold encodeChar
  split_ifs with hquote hback hfeed hreturn htab hbell hpage hlow
  · exact .inl ⟨'"', rfl, by rw [hquote]; rfl⟩
  · exact .inl ⟨'\\', rfl, by rw [hback]; rfl⟩
  · exact .inl ⟨'n', rfl, by rw [hfeed]; rfl⟩
  · exact .inl ⟨'r', rfl, by rw [hreturn]; rfl⟩
  · exact .inl ⟨'t', rfl, by rw [htab]; rfl⟩
  · exact .inl ⟨'b', rfl, by rw [hbell]; rfl⟩
  · exact .inl ⟨'f', rfl, by rw [hpage]; rfl⟩
  · exact .inr (.inl ⟨hlow, rfl⟩)
  · exact .inr (.inr ⟨hquote, hback, Nat.le_of_not_lt hlow, rfl⟩)

theorem decode_shortEscape {e c : Char} (h : shortEscape? e = some c) (rest : List Char) :
    decode ('\\' :: e :: rest) = (decode rest).map fun r => (c :: r.1, r.2) := by
  have hu : e ≠ 'u' := by
    rintro rfl
    exact nomatch h
  rw [decode, h]
  exact fun _ _ _ _ _ e => absurd e hu

theorem decode_cons {c : Char} (hquote : c ≠ '"') (hback : c ≠ '\\') (hlow : 0x20 ≤ c.toNat) (rest : List Char) :
    decode (c :: rest) = (decode rest).map fun r => (c :: r.1, r.2) := by
  have hplain : ¬ (c.toNat < 0x20 ∨ c = '\\') := by
    rintro (h | h)
    · exact absurd hlow (Nat.not_le_of_lt h)
    · exact hback h
  rw [decode, if_neg hplain]
  · exact hquote
  · exact fun _ _ _ _ _ e => absurd e hback
  · exact fun _ _ e => absurd e hback

/-- A character is read back, and the rest after it. -/
theorem decode_encodeChar (c : Char) (rest : List Char) :
    decode (encodeChar c ++ rest) = (decode rest).map fun r => (c :: r.1, r.2) := by
  obtain ⟨e, henc, he⟩ | ⟨hlow, henc⟩ | ⟨hquote, hback, hlow, henc⟩ := encodeChar_cases c <;> rw [henc]
  · exact decode_shortEscape he rest
  · have hscalar : c.toNat < 0xD800 := Nat.lt_trans hlow (by decide)
    simp only [List.cons_append, List.nil_append, decode, hex4?_hexDigit hlow, hscalar, true_or, if_true,
      Char.ofNat_toNat]
  · exact decode_cons hquote hback hlow rest

theorem decode_encode (cs rest : List Char) : decode (encode cs ++ '"' :: rest) = some (cs, rest) := by
  induction cs with
  | nil => simp [encode, decode]
  | cons c cs ih =>
    rw [encode, List.append_assoc, decode_encodeChar, ih]
    rfl

end Text

/-! ### Numbers -/

/-- What follows a value in a text, so that no number goes on. -/
def Stops (rest : List Char) : Prop := ∀ c ∈ rest.head?, c.isDigit = false ∧ c ≠ '.' ∧ c ≠ 'e' ∧ c ≠ 'E'

theorem stops_nil : Stops [] := nofun

theorem stops_cons {c : Char} (h : c.isDigit = false ∧ c ≠ '.' ∧ c ≠ 'e' ∧ c ≠ 'E') (rest : List Char) :
    Stops (c :: rest) := by
  intro d hd
  obtain rfl := Option.some.inj hd
  exact h

theorem takeDigits_append {ds rest : List Char} (hds : ∀ c ∈ ds, c.isDigit = true) (hrest : Stops rest)
    (value count : Nat) :
    takeDigits value count (ds ++ rest) = (Nat.ofDigitChars 10 ds value, count + ds.length, rest) := by
  induction ds generalizing value count with
  | nil =>
    cases rest with
    | nil => rfl
    | cons c rest =>
      have hc := (hrest c rfl).1
      rw [List.nil_append, takeDigits, if_neg (by simp [hc])]
      rfl
  | cons c ds ih =>
    have hc := hds c List.mem_cons_self
    rw [List.cons_append, takeDigits, if_pos hc, ih fun d hd => hds d (.tail _ hd), Nat.ofDigitChars_cons,
      List.length_cons, Nat.mul_comm value]
    congr 2
    omega

theorem isDigit_of_mem_writeNat {n : Nat} {c : Char} (h : c ∈ writeNat n) : c.isDigit = true := by
  exact FleetAtlas.Text.isDigit_of_mem_repr c h

theorem takeDigits_writeNat (n : Nat) {rest : List Char} (hrest : Stops rest) :
    takeDigits 0 0 (writeNat n ++ rest) = (n, (writeNat n).length, rest) := by
  rw [takeDigits_append (fun _ => isDigit_of_mem_writeNat) hrest, Nat.zero_add, writeNat,
    FleetAtlas.Text.ofDigitChars_repr]

theorem head_toDigits_ne_zero {n : Nat} (h : 0 < n) : (Nat.toDigits 10 n).head? ≠ some '0' := by
  induction n using Nat.strongRecOn with
  | _ n ih =>
    by_cases hn : n < 10
    · have hdigits : ∀ n < 10, 0 < n → some n.digitChar ≠ some '0' := by decide
      rw [Nat.toDigits_of_lt_base hn]
      exact hdigits n hn h
    · rw [Nat.toDigits_of_base_le (by decide) (Nat.le_of_not_lt hn), List.head?_append]
      have hhead := ih (n / 10) (by omega) (by omega)
      cases e : Nat.toDigits 10 (n / 10) with
      | nil => exact absurd e Nat.toDigits_ne_nil
      | cons c cs => rwa [e] at hhead

/-- A number starts with a digit, which is a zero only if it is the whole of it. -/
theorem exists_writeNat_eq_cons (n : Nat) :
    ∃ c cs, writeNat n = c :: cs ∧ c.isDigit = true ∧ (c = '0' → cs = []) := by
  cases h : writeNat n with
  | nil =>
    rw [writeNat, Nat.toList_repr] at h
    exact absurd h Nat.toDigits_ne_nil
  | cons c cs =>
    refine ⟨c, cs, rfl, isDigit_of_mem_writeNat (n := n) (by rw [h]; exact List.mem_cons_self), ?_⟩
    rintro rfl
    obtain rfl | hn := Nat.eq_zero_or_pos n
    · exact (List.cons.inj h).2.symm
    · rw [writeNat, Nat.toList_repr] at h
      exact absurd (by rw [h]; rfl) (head_toDigits_ne_zero hn)

/-- The digits of a number are enough, and none too many. -/
theorem not_refused (n : Nat) (rest : List Char) :
    ¬ ((writeNat n).length = 0 ∨ 1 < (writeNat n).length ∧ (writeNat n ++ rest).head? = some '0') := by
  obtain ⟨c, cs, e, -, hzero⟩ := exists_writeNat_eq_cons n
  rw [e]
  rintro (hnil | ⟨hlong, hhead⟩)
  · exact nomatch hnil
  · rw [hzero (Option.some.inj hhead)] at hlong
    exact Nat.lt_irrefl 1 hlong

theorem readNumber_writeNat (n : Nat) {rest : List Char} (hrest : Stops rest) :
    readNumber (writeNat n ++ rest) = some (.int n, rest) := by
  have hdigits := takeDigits_writeNat n hrest
  have hgo := not_refused n rest
  obtain ⟨c, cs, e, hdigit, -⟩ := exists_writeNat_eq_cons n
  have hminus : c ≠ '-' := by
    rintro rfl
    exact nomatch hdigit
  rw [e, List.cons_append] at hdigits hgo ⊢
  have hsign : ∀ rest', c :: (cs ++ rest) ≠ '-' :: rest' := fun _ h => hminus (List.cons.inj h).1
  unfold readNumber
  simp only [hdigits]
  rw [if_neg hgo]
  cases rest with
  | nil => simp
  | cons d rest =>
    obtain ⟨-, hdot, he, hE⟩ := hrest d rfl
    simp [hdot, he, hE]

theorem readNumber_minus (n : Nat) {rest : List Char} (hrest : Stops rest) :
    readNumber ('-' :: (writeNat n ++ rest)) = some (.int (-n), rest) := by
  have hdigits := takeDigits_writeNat n hrest
  have hgo := not_refused n rest
  unfold readNumber
  simp only [hdigits]
  rw [if_neg hgo]
  cases rest with
  | nil => simp
  | cons d rest =>
    obtain ⟨-, hdot, he, hE⟩ := hrest d rfl
    simp [hdot, he, hE]

theorem readNumber_writeInt (n : Int) {rest : List Char} (hrest : Stops rest) :
    readNumber (writeInt n ++ rest) = some (.int n, rest) := by
  unfold writeInt
  split
  · next hneg =>
    have habs : -(n.natAbs : Int) = n := by omega
    rw [List.cons_append, readNumber_minus _ hrest, habs]
  · next hpos =>
    have habs : (n.natAbs : Int) = n := by omega
    rw [readNumber_writeNat _ hrest, habs]

/-! ### Values -/

mutual

/-- **The numbers of the value are integers, and the names of its fields are in order.** -/
def Plain : Json → Prop
  | .null | .bool _ | .int _ | .str _ => True
  | .decimal .. => False
  | .arr items => PlainItems items
  | .obj fields => SortedEntries fields ∧ PlainFields fields

def PlainItems : List Json → Prop
  | [] => True
  | j :: rest => Plain j ∧ PlainItems rest

def PlainFields : List (String × Json) → Prop
  | [] => True
  | (_, j) :: rest => Plain j ∧ PlainFields rest

end

mutual

instance Plain.decidable : (j : Json) → Decidable j.Plain
  | .null | .bool _ | .int _ | .str _ => inferInstanceAs (Decidable True)
  | .decimal .. => inferInstanceAs (Decidable False)
  | .arr items => PlainItems.decidable items
  | .obj fields =>
    have := PlainFields.decidable fields
    inferInstanceAs (Decidable (fields.Pairwise (fun a b => a.1 < b.1) ∧ PlainFields fields))

instance PlainItems.decidable : (items : List Json) → Decidable (PlainItems items)
  | [] => inferInstanceAs (Decidable True)
  | j :: rest =>
    have := Plain.decidable j
    have := PlainItems.decidable rest
    inferInstanceAs (Decidable (_ ∧ _))

instance PlainFields.decidable : (fields : List (String × Json)) → Decidable (PlainFields fields)
  | [] => inferInstanceAs (Decidable True)
  | (_, j) :: rest =>
    have := Plain.decidable j
    have := PlainFields.decidable rest
    inferInstanceAs (Decidable (_ ∧ _))

end

mutual

/-- **How many lists and objects are around each other** in a value. -/
def depth : Json → Nat
  | .null | .bool _ | .int _ | .decimal .. | .str _ => 0
  | .arr items => depthItems items + 1
  | .obj fields => depthFields fields + 1

def depthItems : List Json → Nat
  | [] => 0
  | j :: rest => max (depth j) (depthItems rest)

def depthFields : List (String × Json) → Nat
  | [] => 0
  | (_, j) :: rest => max (depth j) (depthFields rest)

end

theorem depthItems_cons_le {j : Json} {items : List Json} {n : Nat} :
    depthItems (j :: items) ≤ n ↔ j.depth ≤ n ∧ depthItems items ≤ n := Nat.max_le

theorem depthFields_cons_le {name : String} {j : Json} {fields : List (String × Json)} {n : Nat} :
    depthFields ((name, j) :: fields) ≤ n ↔ j.depth ≤ n ∧ depthFields fields ≤ n := Nat.max_le

theorem depthFields_le_iff {fields : List (String × Json)} {n : Nat} :
    depthFields fields ≤ n ↔ ∀ e ∈ fields, e.2.depth ≤ n := by
  induction fields with
  | nil => simp [depthFields]
  | cons e fields ih => rw [depthFields_cons_le, ih, List.forall_mem_cons]

mutual

/-- **No value is deeper than its text is long.** -/
theorem depth_le_length : ∀ j : Json, j.depth ≤ (writeChars j).length
  | .null | .bool _ | .int _ | .decimal .. | .str _ => Nat.zero_le _
  | .arr items => by
    have hitems := depthItems_le_length items
    simp only [depth, writeChars, List.length_append, List.length_cons, List.length_nil]
    omega
  | .obj fields => by
    have hfields := depthFields_le_length fields
    simp only [depth, writeChars, List.length_append, List.length_cons, List.length_nil]
    omega

theorem depthItems_le_length : ∀ items : List Json, depthItems items ≤ (writeItems items).length
  | [] => Nat.le_refl _
  | [j] => by
    have hj := depth_le_length j
    simp only [depthItems, writeItems]
    omega
  | j :: k :: items => by
    have hj := depth_le_length j
    have hitems := depthItems_le_length (k :: items)
    rw [depthItems_cons_le, writeItems, List.length_append, List.length_cons]
    omega

theorem depthFields_le_length : ∀ fields : List (String × Json), depthFields fields ≤ (writeFields fields).length
  | [] => Nat.le_refl _
  | [(name, j)] => by
    have hj := depth_le_length j
    simp only [depthFields, writeFields, List.length_append, List.length_cons]
    omega
  | (name, j) :: e :: fields => by
    have hj := depth_le_length j
    have hfields := depthFields_le_length (e :: fields)
    simp only [depthFields_cons_le (j := j), writeFields, List.length_append, List.length_cons]
    omega

end

theorem plainFields_iff {fields : List (String × Json)} : PlainFields fields ↔ ∀ e ∈ fields, e.2.Plain := by
  induction fields with
  | nil => simp [PlainFields]
  | cons e fields ih => simp [PlainFields, ih]

theorem skipBlanks_cons {c : Char} (h : isBlank c = false) (cs : List Char) : skipBlanks (c :: cs) = c :: cs := by
  rw [skipBlanks, h]
  rfl

/-- What a value starts with. -/
def Starts (c : Char) : Prop := c ∈ ['n', 't', 'f', '"', '[', '{', '-'] ∨ c.isDigit = true

theorem Starts.ne {c d : Char} (h : Starts c) (hd : d ∉ ['n', 't', 'f', '"', '[', '{', '-'] ∧ d.isDigit = false) :
    c ≠ d := by
  rintro rfl
  obtain h | h := h
  · exact hd.1 h
  · rw [hd.2] at h
    exact nomatch h

theorem Starts.isBlank_eq_false {c : Char} (h : Starts c) : isBlank c = false := by
  have hblank := h.ne (d := ' ') (by decide)
  have hfeed := h.ne (d := '\n') (by decide)
  have hreturn := h.ne (d := '\r') (by decide)
  have htab := h.ne (d := '\t') (by decide)
  simp [isBlank, hblank, hfeed, hreturn, htab]

theorem starts_of_number {c : Char} (h : c = '-' ∨ c.isDigit = true) : Starts c := by
  obtain rfl | h := h
  · exact .inl (by decide)
  · exact .inr h

theorem exists_writeInt_eq_cons (n : Int) : ∃ c cs, writeInt n = c :: cs ∧ (c = '-' ∨ c.isDigit = true) := by
  unfold writeInt
  split
  · exact ⟨_, _, rfl, .inl rfl⟩
  · obtain ⟨c, cs, e, hdigit, -⟩ := exists_writeNat_eq_cons n.natAbs
    exact ⟨c, cs, e, .inr hdigit⟩

theorem exists_writeChars_eq_cons {j : Json} (h : j.Plain) : ∃ c cs, writeChars j = c :: cs ∧ Starts c := by
  cases j with
  | bool b => cases b <;> exact ⟨_, _, rfl, .inl (by decide)⟩
  | int n =>
    obtain ⟨c, cs, e, hc⟩ := exists_writeInt_eq_cons n
    exact ⟨c, cs, e, starts_of_number hc⟩
  | decimal m p => exact h.elim
  | _ => exact ⟨_, _, rfl, .inl (by decide)⟩

theorem exists_writeItems_eq_cons {j : Json} (items : List Json) (h : j.Plain) :
    ∃ c cs, writeItems (j :: items) = c :: cs ∧ Starts c := by
  obtain ⟨c, cs, e, hc⟩ := exists_writeChars_eq_cons h
  cases items with
  | nil => exact ⟨c, cs, e, hc⟩
  | cons k items => exact ⟨c, cs ++ ',' :: writeItems (k :: items), by rw [writeItems, e]; rfl, hc⟩

theorem exists_writeFields_eq_cons (e : String × Json) (fields : List (String × Json)) :
    ∃ cs, writeFields (e :: fields) = '"' :: cs := by
  cases fields with
  | nil => exact ⟨_, rfl⟩
  | cons e' fields => exact ⟨_, rfl⟩

/-! What the reader makes of the first character of a value. -/

section Reader

variable (fuel levels : Nat)

theorem readValue_number {c : Char} (h : c = '-' ∨ c.isDigit = true) (cs : List Char) :
    readValue (fuel + 1) levels (c :: cs) = readNumber (c :: cs) := by
  have hblank := (starts_of_number h).isBlank_eq_false
  have hne : c ≠ 'n' ∧ c ≠ 't' ∧ c ≠ 'f' ∧ c ≠ '"' ∧ c ≠ '[' ∧ c ≠ '{' := by
    obtain rfl | h := h
    · decide
    · refine ⟨?_, ?_, ?_, ?_, ?_, ?_⟩ <;> rintro rfl <;> exact nomatch h
  rw [readValue, skipBlanks_cons hblank]
  split <;> simp_all

/-- No list and no object is read at the last level. -/
theorem readValue_zero {c : Char} (h : c = '[' ∨ c = '{') (cs : List Char) : readValue (fuel + 1) 0 (c :: cs) = none := by
  obtain rfl | rfl := h <;> rfl

theorem readValue_arr {c : Char} (h : Starts c) (cs : List Char) : readValue (fuel + 1) (levels + 1) ('[' :: c :: cs) =
    (readItems fuel levels (c :: cs)).map fun r => (.arr r.1, r.2) := by
  have hclose := h.ne (d := ']') (by decide)
  rw [readValue, skipBlanks_cons (by decide)]
  simp [skipBlanks_cons h.isBlank_eq_false, hclose]

theorem readValue_obj (cs : List Char) : readValue (fuel + 1) (levels + 1) ('{' :: '"' :: cs) =
    (readFields fuel levels ('"' :: cs)).map fun r => (.obj (Dict.ofList r.1).toList, r.2) := by
  rw [readValue, skipBlanks_cons (by decide)]
  simp [skipBlanks_cons (c := '"') (by decide)]

variable {fuel levels} {text rest : List Char} {j : Json} (name : String)

theorem readFields_none (h : readValue fuel levels text = none) :
    readFields (fuel + 1) levels (Text.quote name ++ ':' :: text) = none := by
  have hname := Text.decode_encode name.toList (':' :: text)
  rw [Text.quote, List.append_assoc, List.singleton_append, List.cons_append, readFields, skipBlanks_cons (by decide)]
  simp [hname, h, skipBlanks_cons (c := ':') (by decide)]

theorem readFields_last (h : readValue fuel levels text = some (j, '}' :: rest)) :
    readFields (fuel + 1) levels (Text.quote name ++ ':' :: text) = some ([(name, j)], rest) := by
  have hname := Text.decode_encode name.toList (':' :: text)
  rw [Text.quote, List.append_assoc, List.singleton_append, List.cons_append, readFields, skipBlanks_cons (by decide)]
  simp [hname, h, skipBlanks_cons (c := ':') (by decide), skipBlanks_cons (c := '}') (by decide)]

theorem readFields_more (h : readValue fuel levels text = some (j, ',' :: rest)) :
    readFields (fuel + 1) levels (Text.quote name ++ ':' :: text) =
      (readFields fuel levels rest).map fun r => ((name, j) :: r.1, r.2) := by
  have hname := Text.decode_encode name.toList (':' :: text)
  rw [Text.quote, List.append_assoc, List.singleton_append, List.cons_append, readFields, skipBlanks_cons (by decide)]
  simp [hname, h, skipBlanks_cons (c := ':') (by decide), skipBlanks_cons (c := ',') (by decide)]

end Reader

/-- The fields of an object are put in order. -/
theorem readValue_writeFields {fields : List (String × Json)} {fuel : Nat} {rest : List Char} (hne : fields ≠ [])
    (hfields : ∀ levels, readFields fuel levels (writeFields fields ++ '}' :: rest) =
      if depthFields fields ≤ levels then some (fields, rest) else none) (levels : Nat) :
    readValue (fuel + 1) levels (writeChars (.obj fields) ++ rest) =
      if depth (.obj fields) ≤ levels then some (.obj (Dict.ofList fields).toList, rest) else none := by
  have htext : writeChars (.obj fields) ++ rest = '{' :: (writeFields fields ++ '}' :: rest) := by simp [writeChars]
  cases levels with
  | zero =>
    rw [htext, readValue_zero fuel (.inr rfl)]
    simp [depth]
  | succ levels =>
    have hfields := hfields levels
    obtain ⟨e, more, rfl⟩ := List.exists_cons_of_ne_nil hne
    obtain ⟨cs, hquote⟩ := exists_writeFields_eq_cons e more
    rw [hquote, List.cons_append] at hfields htext
    rw [htext, readValue_obj, hfields, Option.map_if]
    simp only [depth, Nat.add_le_add_iff_right]

mutual

/-- **A plain value is read back**, whatever follows it, exactly if it is no deeper than the reader goes. -/
theorem readValue_writeChars : ∀ (j : Json) (fuel levels : Nat) (rest : List Char), j.Plain →
    (writeChars j).length ≤ fuel → Stops rest →
    readValue fuel levels (writeChars j ++ rest) = if j.depth ≤ levels then some (j, rest) else none
  | .null, fuel + 1, levels, rest, _, _, _ => by simp [writeChars, readValue, skipBlanks, isBlank, depth]
  | .bool true, fuel + 1, levels, rest, _, _, _ => by simp [writeChars, readValue, skipBlanks, isBlank, depth]
  | .bool false, fuel + 1, levels, rest, _, _, _ => by simp [writeChars, readValue, skipBlanks, isBlank, depth]
  | .int n, fuel + 1, levels, rest, _, _, hrest => by
    obtain ⟨c, cs, e, hc⟩ := exists_writeInt_eq_cons n
    have hnumber := readNumber_writeInt n hrest
    rw [e, List.cons_append] at hnumber
    rw [writeChars, e, List.cons_append, readValue_number fuel levels hc, hnumber, depth, if_pos (Nat.zero_le _)]
  | .str s, fuel + 1, levels, rest, _, _, _ => by
    have hs := Text.decode_encode s.toList rest
    simp [writeChars, Text.quote, readValue, skipBlanks, isBlank, hs, depth]
  | .arr items, fuel + 1, 0, rest, _, _, _ => by
    have htext : writeChars (.arr items) ++ rest = '[' :: (writeItems items ++ ']' :: rest) := by simp [writeChars]
    rw [htext, readValue_zero fuel (.inl rfl)]
    simp [depth]
  | .arr [], fuel + 1, levels + 1, rest, _, _, _ => by
    simp [writeChars, writeItems, readValue, skipBlanks, isBlank, depth, depthItems]
  | .arr (j :: items), fuel + 1, levels + 1, rest, h, hfuel, _ => by
    have htext : writeChars (.arr (j :: items)) ++ rest = '[' :: (writeItems (j :: items) ++ ']' :: rest) := by
      simp [writeChars]
    have hitems := readItems_writeItems (j :: items) fuel levels rest (List.cons_ne_nil _ _) h (by
      simp only [writeChars, List.length_append, List.length_cons, List.length_nil] at hfuel
      omega)
    obtain ⟨c, cs, e, hc⟩ := exists_writeItems_eq_cons items h.1
    rw [e, List.cons_append] at hitems htext
    rw [htext, readValue_arr fuel levels hc, hitems, Option.map_if]
    simp only [depth, Nat.add_le_add_iff_right]
  | .obj [], fuel + 1, 0, rest, _, _, _ => by
    simp [writeChars, writeFields, readValue, skipBlanks, isBlank, depth]
  | .obj [], fuel + 1, levels + 1, rest, _, _, _ => by
    simp [writeChars, writeFields, readValue, skipBlanks, isBlank, depth, depthFields]
  | .obj (e :: fields), fuel + 1, levels, rest, h, hfuel, _ => by
    have hfields := fun levels => readFields_writeFields (e :: fields) fuel levels rest (List.cons_ne_nil _ _) h.2 (by
      simp only [writeChars, List.length_append, List.length_cons, List.length_nil] at hfuel
      omega)
    have hsame : (Dict.ofList (e :: fields)).toList = e :: fields :=
      congrArg Dict.toList (Dict.ofList_toList ⟨e :: fields, h.1⟩)
    rw [readValue_writeFields (List.cons_ne_nil _ _) hfields, hsame]
  | j, 0, _, _, h, hfuel, _ => by
    obtain ⟨c, cs, e, -⟩ := exists_writeChars_eq_cons h
    rw [e] at hfuel
    exact nomatch hfuel

theorem readItems_writeItems : ∀ (items : List Json) (fuel levels : Nat) (rest : List Char), items ≠ [] →
    PlainItems items → (writeItems items).length < fuel →
    readItems fuel levels (writeItems items ++ ']' :: rest) =
      if depthItems items ≤ levels then some (items, rest) else none
  | [], _, _, _, h, _, _ => absurd rfl h
  | [j], fuel + 1, levels, rest, _, h, hfuel => by
    have hj := readValue_writeChars j fuel levels (']' :: rest) h.1 (Nat.le_of_lt_succ hfuel) (stops_cons (by decide) _)
    rw [writeItems, readItems, hj]
    by_cases hdepth : j.depth ≤ levels <;>
      simp [depthItems, hdepth, skipBlanks_cons (c := ']') (by decide)]
  | j :: k :: items, fuel + 1, levels, rest, _, h, hfuel => by
    rw [writeItems, List.length_append, List.length_cons] at hfuel
    have hj := readValue_writeChars j fuel levels (',' :: (writeItems (k :: items) ++ ']' :: rest)) h.1 (by omega)
      (stops_cons (by decide) _)
    have hitems := readItems_writeItems (k :: items) fuel levels rest (List.cons_ne_nil _ _) h.2 (by omega)
    rw [writeItems, List.append_assoc, List.cons_append, readItems, hj]
    by_cases hdepth : j.depth ≤ levels
    · simp [depthItems_cons_le (j := j), hdepth, skipBlanks_cons (c := ',') (by decide), hitems]
    · simp [depthItems_cons_le (j := j), hdepth]

theorem readFields_writeFields : ∀ (fields : List (String × Json)) (fuel levels : Nat) (rest : List Char),
    fields ≠ [] → PlainFields fields → (writeFields fields).length < fuel →
    readFields fuel levels (writeFields fields ++ '}' :: rest) =
      if depthFields fields ≤ levels then some (fields, rest) else none
  | [], _, _, _, h, _, _ => absurd rfl h
  | [(name, j)], fuel + 1, levels, rest, _, h, hfuel => by
    rw [writeFields, List.length_append, List.length_cons] at hfuel
    have hj := readValue_writeChars j fuel levels ('}' :: rest) h.1 (by omega) (stops_cons (by decide) _)
    rw [writeFields, List.append_assoc, List.cons_append]
    by_cases hdepth : j.depth ≤ levels
    · rw [if_pos hdepth] at hj
      rw [readFields_last name hj, if_pos (depthFields_cons_le.mpr ⟨hdepth, Nat.zero_le _⟩)]
    · rw [if_neg hdepth] at hj
      rw [readFields_none name hj, if_neg fun h => hdepth (depthFields_cons_le.mp h).1]
  | (name, j) :: e :: fields, fuel + 1, levels, rest, _, h, hfuel => by
    simp only [writeFields, List.length_append, List.length_cons] at hfuel
    have hj := readValue_writeChars j fuel levels (',' :: (writeFields (e :: fields) ++ '}' :: rest)) h.1 (by omega)
      (stops_cons (by decide) _)
    have hfields := readFields_writeFields (e :: fields) fuel levels rest (List.cons_ne_nil _ _) h.2 (by omega)
    have htext : writeFields ((name, j) :: e :: fields) ++ '}' :: rest =
        Text.quote name ++ ':' :: (writeChars j ++ ',' :: (writeFields (e :: fields) ++ '}' :: rest)) := by
      simp [writeFields]
    rw [htext]
    by_cases hdepth : j.depth ≤ levels
    · rw [if_pos hdepth] at hj
      rw [readFields_more name hj, hfields, Option.map_if]
      simp only [depthFields_cons_le (j := j), hdepth, true_and]
    · rw [if_neg hdepth] at hj
      rw [readFields_none name hj, if_neg fun h => hdepth (depthFields_cons_le.mp h).1]

end

theorem readWithin?_eq {j k : Json} {levels : Nat}
    (h : readValue ((writeChars j).length + 1) levels (writeChars j ++ []) =
      if j.depth ≤ levels then some (k, []) else none) :
    readWithin? levels j.write = if j.depth ≤ levels then some k else none := by
  rw [List.append_nil] at h
  simp only [readWithin?, write, String.toList_ofList, h]
  by_cases hdepth : j.depth ≤ levels <;> simp [hdepth, skipBlanks]

/-- **A plain value is read back** from its text, exactly if it is no deeper than the reader goes. -/
theorem readWithin?_write {j : Json} (h : j.Plain) (levels : Nat) :
    readWithin? levels j.write = if j.depth ≤ levels then some j else none :=
  readWithin?_eq (readValue_writeChars j _ levels [] h (Nat.le_succ _) stops_nil)

/-- The fields of an object are read back, whatever their order. -/
theorem readWithin?_write_obj {fields : List (String × Json)} (h : PlainFields fields) (levels : Nat) :
    readWithin? levels (write (.obj fields)) =
      if depth (.obj fields) ≤ levels then some (.obj (Dict.ofList fields).toList) else none := by
  refine readWithin?_eq ?_
  cases fields with
  | nil => exact readValue_writeChars (.obj []) _ levels [] ⟨.nil, h⟩ (Nat.le_succ _) stops_nil
  | cons e fields =>
    refine readValue_writeFields (List.cons_ne_nil _ _)
      (fun levels => readFields_writeFields _ _ levels [] (List.cons_ne_nil _ _) h ?_) levels
    simp only [writeChars, List.length_append, List.length_cons, List.length_nil]
    omega

/-! ### Lines -/

theorem newline_notMem_encode (cs : List Char) : '\n' ∉ Text.encode cs := by
  induction cs with
  | nil => nofun
  | cons c cs ih =>
    rw [Text.encode, List.mem_append, not_or]
    refine ⟨?_, ih⟩
    obtain ⟨e, henc, he⟩ | ⟨hlow, henc⟩ | ⟨-, -, hlow, henc⟩ := Text.encodeChar_cases c <;> rw [henc]
    · have hne : '\n' ≠ e := by
        rintro rfl
        exact nomatch he
      simp [hne]
    · have hdigits : ∀ n < 16, '\n' ≠ Text.hexDigit n := by decide
      simp [hdigits (c.toNat / 16) (by omega), hdigits (c.toNat % 16) (by omega)]
    · intro h
      obtain rfl := List.mem_singleton.mp h
      exact absurd hlow (by decide)

theorem newline_notMem_quote (s : String) : '\n' ∉ Text.quote s := by
  have h := newline_notMem_encode s.toList
  simp [Text.quote, h]

theorem newline_notMem_writeInt (n : Int) : '\n' ∉ writeInt n := by
  have hdigits : '\n' ∉ writeNat n.natAbs := fun h => nomatch isDigit_of_mem_writeNat h
  unfold writeInt
  split
  · simp [hdigits]
  · exact hdigits

mutual

/-- **A plain value is written on one line.** -/
theorem newline_notMem_writeChars : ∀ j : Json, j.Plain → '\n' ∉ writeChars j
  | .null, _ => by decide
  | .bool true, _ => by decide
  | .bool false, _ => by decide
  | .int n, _ => newline_notMem_writeInt n
  | .str s, _ => newline_notMem_quote s
  | .arr items, h => by
    have hitems := newline_notMem_writeItems items h
    simp [writeChars, hitems]
  | .obj fields, h => by
    have hfields := newline_notMem_writeFields fields h.2
    simp [writeChars, hfields]

theorem newline_notMem_writeItems : ∀ items : List Json, PlainItems items → '\n' ∉ writeItems items
  | [], _ => nofun
  | [j], h => newline_notMem_writeChars j h.1
  | j :: k :: items, h => by
    have hj := newline_notMem_writeChars j h.1
    have hitems := newline_notMem_writeItems (k :: items) h.2
    simp [writeItems, hj, hitems]

theorem newline_notMem_writeFields : ∀ fields : List (String × Json), PlainFields fields → '\n' ∉ writeFields fields
  | [], _ => nofun
  | [(name, j)], h => by
    have hname := newline_notMem_quote name
    have hj := newline_notMem_writeChars j h.1
    simp [writeFields, hname, hj]
  | (name, j) :: e :: fields, h => by
    have hname := newline_notMem_quote name
    have hj := newline_notMem_writeChars j h.1
    have hfields := newline_notMem_writeFields (e :: fields) h.2
    simp [writeFields, hname, hj, hfields]

end

end FleetAtlas.Json
