/-!
# Finite maps with their keys in order

* `LinearKey`: keys that `<` orders linearly;
* `Dict κ α`: entries with strictly increasing keys, so that equal look-ups mean equal maps (`Dict.ext_get?`);
* `Dict.get?`, `Dict.insert`, `Dict.erase`, `Dict.filter`: the operations, each with its law for `get?`.
-/

namespace FleetAtlas

/-- Keys that `<` orders linearly. -/
class LinearKey (κ : Type) [LT κ] : Prop where
  irrefl : ∀ a : κ, ¬ a < a
  trans : ∀ {a b c : κ}, a < b → b < c → a < c
  connex : ∀ {a b : κ}, ¬ a < b → ¬ b < a → a = b

instance : LinearKey String where
  irrefl := String.lt_irrefl
  trans := String.lt_trans
  connex h₁ h₂ := String.le_antisymm (String.not_lt.mp h₂) (String.not_lt.mp h₁)

instance : LinearKey (List String) where
  irrefl := List.lt_irrefl
  trans := List.lt_trans
  connex h₁ h₂ := List.le_antisymm (List.not_lt.mp h₂) (List.not_lt.mp h₁)

/-! ### Sorted entries -/

/-- Entries whose keys increase strictly. -/
def SortedEntries {κ α : Type} [LT κ] (l : List (κ × α)) : Prop := l.Pairwise fun a b => a.1 < b.1

section Entries

variable {κ α : Type} [LT κ] [DecidableLT κ]

/-- The value under a key, the keys being in order. -/
def findEntry (k : κ) : List (κ × α) → Option α
  | [] => none
  | (k', v) :: rest => if k' < k then findEntry k rest else if k < k' then none else some v

/-- Puts an entry in its place, over the one with the same key. -/
def insertEntry (k : κ) (v : α) : List (κ × α) → List (κ × α)
  | [] => [(k, v)]
  | (k', v') :: rest =>
    if k' < k then (k', v') :: insertEntry k v rest
    else if k < k' then (k, v) :: (k', v') :: rest
    else (k, v) :: rest

/-- Leaves out the entry of a key. -/
def eraseEntry (k : κ) : List (κ × α) → List (κ × α)
  | [] => []
  | (k', v') :: rest =>
    if k' < k then (k', v') :: eraseEntry k rest else if k < k' then (k', v') :: rest else rest

theorem mem_insertEntry {k : κ} {v : α} {e : κ × α} {l : List (κ × α)} (h : e ∈ insertEntry k v l) :
    e = (k, v) ∨ e ∈ l := by
  induction l with
  | nil => simpa [insertEntry] using h
  | cons hd tl ih =>
    unfold insertEntry at h
    split at h
    · rcases List.mem_cons.mp h with h | h
      · exact .inr (h ▸ List.mem_cons_self)
      · exact (ih h).imp_right (List.mem_cons_of_mem _)
    · split at h <;> rcases List.mem_cons.mp h with h | h
      · exact .inl h
      · exact .inr h
      · exact .inl h
      · exact .inr (List.mem_cons_of_mem _ h)

theorem mem_of_mem_eraseEntry {k : κ} {e : κ × α} {l : List (κ × α)} (h : e ∈ eraseEntry k l) : e ∈ l := by
  induction l with
  | nil => simp [eraseEntry] at h
  | cons hd tl ih =>
    unfold eraseEntry at h
    split at h
    · rcases List.mem_cons.mp h with h | h
      · exact h ▸ List.mem_cons_self
      · exact List.mem_cons_of_mem _ (ih h)
    · split at h
      · exact h
      · exact List.mem_cons_of_mem _ h

variable [LinearKey κ]

theorem SortedEntries.insertEntry {l : List (κ × α)} (h : SortedEntries l) (k : κ) (v : α) :
    SortedEntries (FleetAtlas.insertEntry k v l) := by
  induction l with
  | nil => simp [FleetAtlas.insertEntry, SortedEntries]
  | cons hd tl ih =>
    obtain ⟨hhd, htl⟩ := List.pairwise_cons.mp h
    unfold FleetAtlas.insertEntry
    split
    next hlt =>
      refine List.pairwise_cons.mpr ⟨fun e he => ?_, ih htl⟩
      rcases mem_insertEntry he with rfl | he
      · exact hlt
      · exact hhd e he
    next hge =>
      split
      next hlt =>
        refine List.pairwise_cons.mpr ⟨fun e he => ?_, h⟩
        rcases List.mem_cons.mp he with rfl | he
        · exact hlt
        · exact LinearKey.trans hlt (hhd e he)
      next hle =>
        have : k = hd.1 := LinearKey.connex hle hge
        exact List.pairwise_cons.mpr ⟨fun e he => this ▸ hhd e he, htl⟩

omit [LinearKey κ] in
theorem SortedEntries.eraseEntry {l : List (κ × α)} (h : SortedEntries l) (k : κ) :
    SortedEntries (FleetAtlas.eraseEntry k l) := by
  induction l with
  | nil => simp [FleetAtlas.eraseEntry, SortedEntries]
  | cons hd tl ih =>
    obtain ⟨hhd, htl⟩ := List.pairwise_cons.mp h
    unfold FleetAtlas.eraseEntry
    split
    · exact List.pairwise_cons.mpr ⟨fun e he => hhd e (mem_of_mem_eraseEntry he), ih htl⟩
    · split
      · exact h
      · exact htl

theorem findEntry_eq_none_of_lt {k : κ} {l : List (κ × α)} (h : ∀ e ∈ l, k < e.1) : findEntry k l = none := by
  cases l with
  | nil => rfl
  | cons hd tl =>
    have hk := h hd List.mem_cons_self
    unfold findEntry
    rw [if_neg fun h' => LinearKey.irrefl k (LinearKey.trans hk h'), if_pos hk]

theorem findEntry_insertEntry_self (k : κ) (v : α) (l : List (κ × α)) :
    findEntry k (insertEntry k v l) = some v := by
  induction l with
  | nil => simp [insertEntry, findEntry, LinearKey.irrefl]
  | cons hd tl ih =>
    unfold insertEntry
    split
    next h => simp [findEntry, h, ih]
    next => split <;> simp [findEntry, LinearKey.irrefl]

theorem findEntry_insertEntry_of_ne {k k' : κ} (hne : k' ≠ k) (v : α) (l : List (κ × α)) :
    findEntry k' (insertEntry k v l) = findEntry k' l := by
  have flip : ¬ k < k' → k' < k := fun h =>
    Decidable.byContradiction fun h' => hne (LinearKey.connex h' h)
  induction l with
  | nil =>
    unfold insertEntry findEntry
    split
    · rfl
    · next h => simp [flip h]
  | cons hd tl ih =>
    unfold insertEntry
    split
    next h => unfold findEntry; simp only [ih]
    next h₁ =>
      split
      next h₂ =>
        by_cases h : k < k'
        · simp [findEntry, h]
        · have := flip h
          have h₃ : k' < hd.1 := LinearKey.trans this h₂
          have h₄ : ¬ hd.1 < k' := fun h' => LinearKey.irrefl _ (LinearKey.trans h₃ h')
          simp [findEntry, h, this, h₃, h₄]
      next h₂ =>
        have hk : k = hd.1 := LinearKey.connex h₂ h₁
        unfold findEntry
        rw [← hk]
        by_cases h : k < k'
        · simp [h]
        · simp [h, flip h]

theorem findEntry_eraseEntry_self {k : κ} {l : List (κ × α)} (hs : SortedEntries l) :
    findEntry k (eraseEntry k l) = none := by
  induction l with
  | nil => rfl
  | cons hd tl ih =>
    obtain ⟨hhd, htl⟩ := List.pairwise_cons.mp hs
    unfold eraseEntry
    split
    next h => simp [findEntry, h, ih htl]
    next h₁ =>
      split
      next h₂ => simp [findEntry, h₁, h₂]
      next h₂ =>
        have hk : k = hd.1 := LinearKey.connex h₂ h₁
        exact findEntry_eq_none_of_lt fun e he => hk ▸ hhd e he

theorem findEntry_eraseEntry_of_ne {k k' : κ} (hne : k' ≠ k) {l : List (κ × α)} (hs : SortedEntries l) :
    findEntry k' (eraseEntry k l) = findEntry k' l := by
  induction l with
  | nil => rfl
  | cons hd tl ih =>
    obtain ⟨hhd, htl⟩ := List.pairwise_cons.mp hs
    unfold eraseEntry
    split
    next h => unfold findEntry; simp only [ih htl]
    next h₁ =>
      split
      next h₂ => rfl
      next h₂ =>
        have hk : k = hd.1 := LinearKey.connex h₂ h₁
        by_cases h : k < k'
        · simp [findEntry, ← hk, h]
        · have h' : k' < k := Decidable.byContradiction fun h' => hne (LinearKey.connex h' h)
          rw [findEntry_eq_none_of_lt fun e he => LinearKey.trans h' (hk ▸ hhd e he)]
          simp [findEntry, ← hk, h, h']

theorem findEntry_eq_some_iff {k : κ} {v : α} {l : List (κ × α)} (hs : SortedEntries l) :
    findEntry k l = some v ↔ (k, v) ∈ l := by
  induction l with
  | nil => simp [findEntry]
  | cons hd tl ih =>
    obtain ⟨k₀, v₀⟩ := hd
    obtain ⟨hhd, htl⟩ := List.pairwise_cons.mp hs
    unfold findEntry
    split
    next h =>
      rw [ih htl, List.mem_cons]
      refine ⟨.inr, fun h' => h'.elim (fun e => ?_) id⟩
      rw [Prod.mk.injEq] at e
      exact absurd (e.1 ▸ h) (LinearKey.irrefl k)
    next h₁ =>
      split
      next h₂ =>
        refine ⟨nofun, fun h => ?_⟩
        rcases List.mem_cons.mp h with e | h
        · rw [Prod.mk.injEq] at e
          exact absurd (e.1 ▸ h₂) (LinearKey.irrefl _)
        · exact absurd (hhd _ h) h₁
      next h₂ =>
        have hk : k = k₀ := LinearKey.connex h₂ h₁
        subst hk
        rw [Option.some.injEq, List.mem_cons, Prod.mk.injEq]
        refine ⟨fun h => .inl ⟨rfl, h.symm⟩, fun h => ?_⟩
        rcases h with h | h
        · exact h.2.symm
        · exact absurd (hhd _ h) (LinearKey.irrefl k)

theorem SortedEntries.ext {l₁ l₂ : List (κ × α)} (h₁ : SortedEntries l₁) (h₂ : SortedEntries l₂)
    (h : ∀ k, findEntry k l₁ = findEntry k l₂) : l₁ = l₂ := by
  induction l₁ generalizing l₂ with
  | nil =>
    cases l₂ with
    | nil => rfl
    | cons hd tl =>
      have := h hd.1
      simp [findEntry, LinearKey.irrefl] at this
  | cons a tl₁ ih =>
    cases l₂ with
    | nil =>
      have := h a.1
      simp [findEntry, LinearKey.irrefl] at this
    | cons b tl₂ =>
      obtain ⟨k₁, v₁⟩ := a
      obtain ⟨k₂, v₂⟩ := b
      obtain ⟨ha, h₁'⟩ := List.pairwise_cons.mp h₁
      obtain ⟨hb, h₂'⟩ := List.pairwise_cons.mp h₂
      have hk : k₁ = k₂ := by
        refine LinearKey.connex (fun hlt => ?_) (fun hlt => ?_)
        · have := h k₁
          simp [findEntry, LinearKey.irrefl, hlt,
            show ¬ k₂ < k₁ from fun h' => LinearKey.irrefl _ (LinearKey.trans hlt h')] at this
        · have := h k₂
          simp [findEntry, LinearKey.irrefl, hlt,
            show ¬ k₁ < k₂ from fun h' => LinearKey.irrefl _ (LinearKey.trans hlt h')] at this
      subst hk
      have hv : v₁ = v₂ := by
        have := h k₁
        simpa [findEntry, LinearKey.irrefl] using this
      subst hv
      congr 1
      refine ih h₁' h₂' fun k => ?_
      by_cases hlt : k₁ < k
      · have := h k
        simpa [findEntry, hlt] using this
      · have low : ∀ e ∈ tl₁, k < e.1 ∨ k = k₁ := fun _ _ => by
          by_cases hgt : k < k₁
          · exact .inl (LinearKey.trans hgt (ha _ ‹_›))
          · exact .inr (LinearKey.connex hgt hlt)
        have lt₁ : ∀ e ∈ tl₁, k < e.1 := fun e he =>
          (low e he).elim id fun hk => hk ▸ ha e he
        have lt₂ : ∀ e ∈ tl₂, k < e.1 := fun e he => by
          by_cases hgt : k < k₁
          · exact LinearKey.trans hgt (hb e he)
          · exact LinearKey.connex hgt hlt ▸ hb e he
        rw [findEntry_eq_none_of_lt lt₁, findEntry_eq_none_of_lt lt₂]

end Entries

/-! ### Maps -/

/-- A finite map: its entries, with strictly increasing keys. -/
structure Dict (κ α : Type) [LT κ] where
  entries : List (κ × α)
  sorted : SortedEntries entries

namespace Dict

section Basic

variable {κ α β : Type} [LT κ]

theorem ext_entries {d₁ d₂ : Dict κ α} (h : d₁.entries = d₂.entries) : d₁ = d₂ := by
  cases d₁; cases d₂; cases h; rfl

instance [DecidableEq κ] [DecidableEq α] : DecidableEq (Dict κ α) := fun d₁ d₂ =>
  if h : d₁.entries = d₂.entries then isTrue (ext_entries h) else isFalse fun e => h (e ▸ rfl)

/-- The map without entries. -/
def empty : Dict κ α := ⟨[], List.Pairwise.nil⟩

instance : EmptyCollection (Dict κ α) := ⟨empty⟩
instance : Inhabited (Dict κ α) := ⟨empty⟩

/-- The entries in key order. -/
def toList (d : Dict κ α) : List (κ × α) := d.entries

/-- The keys in order. -/
def keys (d : Dict κ α) : List κ := d.entries.map Prod.fst

/-- The values in key order. -/
def values (d : Dict κ α) : List α := d.entries.map Prod.snd

/-- Whether there is no entry. -/
def isEmpty (d : Dict κ α) : Bool := d.entries.isEmpty

/-- Keeps the entries that pass a test. -/
def filter (p : κ → α → Bool) (d : Dict κ α) : Dict κ α :=
  ⟨d.entries.filter fun e => p e.1 e.2, d.sorted.filter _⟩

/-- Changes every value, with its key in sight. -/
def mapValues (f : κ → α → β) (d : Dict κ α) : Dict κ β :=
  ⟨d.entries.map fun e => (e.1, f e.1 e.2), List.pairwise_map.mpr (d.sorted.imp id)⟩

end Basic

variable {κ α : Type} [LT κ] [DecidableLT κ]

/-- The value under a key. -/
def get? (d : Dict κ α) (k : κ) : Option α := findEntry k d.entries

/-- Whether a key has a value. -/
def contains (d : Dict κ α) (k : κ) : Bool := (d.get? k).isSome

/-- The value under a key, or a value in its place. -/
def getD (d : Dict κ α) (k : κ) (v : α) : α := (d.get? k).getD v

@[simp] theorem get?_empty (k : κ) : (∅ : Dict κ α).get? k = none := rfl

variable [LinearKey κ]

/-- Puts a value under a key, over the one that is there. -/
def insert (d : Dict κ α) (k : κ) (v : α) : Dict κ α := ⟨insertEntry k v d.entries, d.sorted.insertEntry k v⟩

/-- Leaves out a key. -/
def erase (d : Dict κ α) (k : κ) : Dict κ α := ⟨eraseEntry k d.entries, d.sorted.eraseEntry k⟩

/-- Puts entries in one after the other, so the last of one key stays. -/
def insertMany (d : Dict κ α) (l : List (κ × α)) : Dict κ α := l.foldl (fun d e => d.insert e.1 e.2) d

/-- The map of a list of entries, the last of one key winning. -/
def ofList (l : List (κ × α)) : Dict κ α := (∅ : Dict κ α).insertMany l

@[simp] theorem get?_insert_self (d : Dict κ α) (k : κ) (v : α) : (d.insert k v).get? k = some v :=
  findEntry_insertEntry_self k v d.entries

theorem get?_insert_of_ne (d : Dict κ α) {k k' : κ} (h : k' ≠ k) (v : α) : (d.insert k v).get? k' = d.get? k' :=
  findEntry_insertEntry_of_ne h v d.entries

theorem get?_insert [DecidableEq κ] (d : Dict κ α) (k k' : κ) (v : α) :
    (d.insert k v).get? k' = if k' = k then some v else d.get? k' := by
  split
  · next h => rw [h, get?_insert_self]
  · next h => exact get?_insert_of_ne d h v

@[simp] theorem get?_erase_self (d : Dict κ α) (k : κ) : (d.erase k).get? k = none :=
  findEntry_eraseEntry_self d.sorted

theorem get?_erase_of_ne (d : Dict κ α) {k k' : κ} (h : k' ≠ k) : (d.erase k).get? k' = d.get? k' :=
  findEntry_eraseEntry_of_ne h d.sorted

theorem mem_toList_iff {d : Dict κ α} {k : κ} {v : α} : (k, v) ∈ d.toList ↔ d.get? k = some v :=
  (findEntry_eq_some_iff d.sorted).symm

/-- Maps with equal look-ups are equal. -/
theorem ext_get? {d₁ d₂ : Dict κ α} (h : ∀ k, d₁.get? k = d₂.get? k) : d₁ = d₂ :=
  ext_entries (SortedEntries.ext d₁.sorted d₂.sorted h)

end Dict

end FleetAtlas
