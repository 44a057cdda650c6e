import FleetAtlas.Fingerprint.Source
import Mathlib.Algebra.Group.Nat.Defs
import Mathlib.Tactic.SplitIfs

/-!
# The order of texts and that of their bytes

A character is encoded by a first byte and up to three more. The first byte says how many follow and holds the highest bits,
so it grows with the character; the others hold six bits each, the highest first.

* `Text.leader`, `Text.followers`, `Text.trail`: the first byte, the number of the others, and these;
  `Text.utf8EncodeChar_eq`: a character is encoded by them;
* `Text.utf8EncodeChar_append_lt`: bytes that begin with a lower character are lower, whatever follows;
* `utf8_lt_iff`: **the bytes of texts are in the order of the texts**.
-/

namespace FleetAtlas

namespace Text

/-- How many bytes follow the first one of a character. -/
def followers (v : Nat) : Nat := if v ≤ 127 then 0 else if v ≤ 2047 then 1 else if v ≤ 65535 then 2 else 3

/-- The first byte of a character. -/
def leader (v : Nat) : Nat :=
  if v ≤ 127 then v else if v ≤ 2047 then v / 64 + 192 else if v ≤ 65535 then v / 4096 + 224 else v / 262144 + 240

/-- The last bytes of a character, of which there are `k`. -/
def trail (v : Nat) : (k : Nat) → List UInt8
  | 0 => []
  | k + 1 => UInt8.ofNat (v / 64 ^ k % 64 + 128) :: trail v k

theorem toNat_val_lt (c : Char) : c.val.toNat < 0x110000 := by
  rcases c.valid with h | h <;> omega

theorem utf8EncodeChar_eq (c : Char) :
    String.utf8EncodeChar c = UInt8.ofNat (leader c.val.toNat) :: trail c.val.toNat (followers c.val.toNat) := by
  have hv : c.val.toNat < 0x110000 := toNat_val_lt c
  unfold String.utf8EncodeChar leader followers
  generalize c.val.toNat = v at *
  -- the highest bits fit into the first byte
  have htwo : v ≤ 2047 → v / 64 % 32 = v / 64 := by omega
  have hthree : v ≤ 65535 → v / 4096 % 16 = v / 4096 := by omega
  have hfour : v / 262144 % 8 = v / 262144 := by omega
  dsimp only
  split_ifs with h₁ h₂ h₃
  · rfl
  · rw [htwo h₂]
    simp [trail]
  · rw [hthree h₃]
    simp [trail]
  · rw [hfour]
    simp [trail]

section Order

variable {v w : Nat}

theorem leader_lt (h : v < 0x110000) : leader v < 256 := by
  unfold leader
  split_ifs <;> omega

/-- The first bytes are in order; they are the same only if as many bytes follow and the highest bits are the same. -/
theorem leader_lt_or_eq (h : v < w) (hw : w < 0x110000) : leader v < leader w ∨
    leader v = leader w ∧ followers v = followers w ∧ v / 64 ^ followers v = w / 64 ^ followers v := by
  unfold leader followers
  split_ifs <;> omega

/-- Lists of bytes are in the order of the first bytes that differ. -/
theorem ofNat_cons_lt_iff {a b : Nat} (ha : a < 256) (hb : b < 256) {x y : List UInt8} :
    UInt8.ofNat a :: x < UInt8.ofNat b :: y ↔ a < b ∨ a = b ∧ x < y := by
  have heq : UInt8.ofNat a = UInt8.ofNat b ↔ a = b := by
    rw [← UInt8.toNat_inj, UInt8.toNat_ofNat_of_lt' ha, UInt8.toNat_ofNat_of_lt' hb]
  rw [List.cons_lt_cons_iff, UInt8.ofNat_lt_iff_lt ha hb, heq]

/-- The last bytes are in order, the bits before them being the same. -/
theorem trail_append_lt (h : v < w) {k : Nat} (hlead : v / 64 ^ k = w / 64 ^ k) (x y : List UInt8) :
    trail v k ++ x < trail w k ++ y := by
  induction k with
  | zero =>
    rw [Nat.pow_zero, Nat.div_one, Nat.div_one] at hlead
    omega
  | succ k ih =>
    rw [trail, trail, List.cons_append, List.cons_append, ofNat_cons_lt_iff (by omega) (by omega)]
    rw [Nat.pow_succ, ← Nat.div_div_eq_div_mul, ← Nat.div_div_eq_div_mul] at hlead
    have hle : v / 64 ^ k ≤ w / 64 ^ k := Nat.div_le_div_right (Nat.le_of_lt h)
    rcases Nat.eq_or_lt_of_le hle with heq | hlt
    · exact .inr ⟨by rw [heq], ih heq⟩
    · exact .inl (by omega)

end Order

/-- Bytes that begin with a lower character are lower, whatever follows. -/
theorem utf8EncodeChar_append_lt {c d : Char} (h : c < d) (x y : List UInt8) :
    String.utf8EncodeChar c ++ x < String.utf8EncodeChar d ++ y := by
  have hlt : c.val.toNat < d.val.toNat := h
  rw [utf8EncodeChar_eq, utf8EncodeChar_eq, List.cons_append, List.cons_append,
    ofNat_cons_lt_iff (leader_lt (toNat_val_lt c)) (leader_lt (toNat_val_lt d))]
  rcases leader_lt_or_eq hlt (toNat_val_lt d) with hleader | ⟨hleader, hfollowers, hlead⟩
  · exact .inl hleader
  · rw [← hfollowers]
    exact .inr ⟨hleader, trail_append_lt hlt hlead x y⟩

theorem flatMap_utf8EncodeChar_lt {l m : List Char} (h : l < m) :
    l.flatMap String.utf8EncodeChar < m.flatMap String.utf8EncodeChar := by
  induction h with
  | @nil d m =>
    rw [List.flatMap_nil, List.flatMap_cons, utf8EncodeChar_eq d]
    exact .nil
  | rel hcd => exact utf8EncodeChar_append_lt hcd _ _
  | cons _ ih => exact List.append_left_lt ih

end Text

theorem utf8_eq_flatMap (s : String) : utf8 s = s.toList.flatMap String.utf8EncodeChar := by
  rw [utf8, String.toUTF8_eq_toByteArray, ← String.utf8Encode_toList]
  exact List.toList_data_toByteArray

/-- **The bytes of texts are in the order of the texts.** -/
theorem utf8_lt_iff {s t : String} : utf8 s < utf8 t ↔ s < t := by
  have hlt {a b : String} (h : a < b) : utf8 a < utf8 b := by
    rw [utf8_eq_flatMap, utf8_eq_flatMap]
    exact Text.flatMap_utf8EncodeChar_lt h
  refine ⟨fun h => Decidable.byContradiction fun hst => ?_, hlt⟩
  by_cases hts : t < s
  · exact List.lt_asymm h (hlt hts)
  · obtain rfl : s = t := LinearKey.connex hst hts
    exact List.lt_irrefl _ h

/-- Greek comes before the signs beyond the first 65536 characters, in bytes as well. -/
example : utf8 "ω" < utf8 "𝟘" ∧ utf8 "𝟘" < utf8 "𝟘a" := by decide

end FleetAtlas
