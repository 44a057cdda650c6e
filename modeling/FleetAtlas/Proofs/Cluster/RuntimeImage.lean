import FleetAtlas.Cluster.Image
import FleetAtlas.Proofs.Entity.Uid

/-!
# Names of runtime images

* `Image.States`: the names that state a version; `Image.Groups.Match`: what the pattern
  `^dolittle/runtime:(\d+)\.(\d+)\.(\d+)(-(.+))?$` matches, for any class of digits;
* `number?_eq_some_iff`, `readNumber?_eq_some_iff`, …: what each step of the reader takes;
* `runtimeVersion?_eq_some_iff`: the reader takes the names that state a version, and no others;
* `Groups.Match.unique`: the pattern matches in one way at most; `versionOf?_eq`: parsing what a matcher captures gives the
  same version;
* `runtimeVersion_exact`: **a version is read from exactly the names that state it**, and from the name that its uid makes.
-/

namespace FleetAtlas.Image

open FleetAtlas.Text

/-! ### Names that state a version -/

/-- A run of digits, of one at least; `digit` says which characters are digits. -/
structure IsRun (digit : Char → Bool) (text : String) : Prop where
  ne_nil : text.toList ≠ []
  digits : ∀ c ∈ text.toList, digit c = true

/-- Digits from `0` to `9`, at least one, that write a number; zeros may lead. -/
structure Writes (digits : String) (n : UInt32) : Prop where
  isRun : IsRun Char.isDigit digits
  value : Nat.ofDigitChars 10 digits.toList 0 = n.toNat

/-- None, or a text of one character or more without a line feed. -/
def WithinLine (prerelease : Option String) : Prop := ∀ text ∈ prerelease, text ≠ "" ∧ '\n' ∉ text.toList

/-- The name of an image states the version of a runtime: the repository, three numbers with points between them, and the
prerelease, if there is one, after a dash. -/
def States (image : String) (major minor patch : UInt32) (prerelease : Option String) : Prop :=
  WithinLine prerelease ∧ ∃ a b c : String, Writes a major ∧ Writes b minor ∧ Writes c patch ∧
    image = "dolittle/runtime:" ++ a ++ "." ++ b ++ "." ++ c ++ Uid.versionTail prerelease

theorem isRun_ofList {digit : Char → Bool} {ds : List Char} (hne : ds ≠ []) (hdigits : ∀ c ∈ ds, digit c = true) :
    IsRun digit (String.ofList ds) where
  ne_nil := by rwa [String.toList_ofList]
  digits := by rwa [String.toList_ofList]

theorem writes_repr (n : UInt32) : Writes (Nat.repr n.toNat) n where
  isRun := ⟨by rw [Nat.toList_repr]; exact Nat.toDigits_ne_nil, isDigit_of_mem_repr⟩
  value := ofDigitChars_repr n.toNat

/-- Where the parts of a name stand. -/
theorem image_eq_iff {image a b c : String} {p : Option String} :
    image = "dolittle/runtime:" ++ a ++ "." ++ b ++ "." ++ c ++ Uid.versionTail p ↔
      image.toList = runtimeRepository ++ (a.toList ++ '.' :: (b.toList ++ '.' :: (c.toList ++
        (Uid.versionTail p).toList))) := by
  have hpoint : ".".toList = ['.'] := by simp
  refine String.toList_inj.symm.trans ?_
  simp only [String.toList_append, hpoint, List.append_assoc, List.cons_append, List.nil_append]
  exact Iff.rfl

/-! ### What the reader takes -/

theorem dropPrefix?_eq_some_iff {start cs rest : List Char} : dropPrefix? start cs = some rest ↔ cs = start ++ rest := by
  induction start generalizing cs with
  | nil => simp [dropPrefix?]
  | cons p start ih =>
    cases cs with
    | nil => simp [dropPrefix?]
    | cons c cs =>
      rw [dropPrefix?]
      by_cases h : p = c
      · simp [h, ih]
      · simp [h, Ne.symm h]

/-- The number that digits write, if it is below `2 ^ 32`. -/
def number? (ds : List Char) : Option UInt32 :=
  if ds.isEmpty ∨ 4294967296 ≤ digitsValue ds then none else some (UInt32.ofNat (digitsValue ds))

theorem number?_eq_some_iff {ds : List Char} {n : UInt32} :
    number? ds = some n ↔ ds ≠ [] ∧ Nat.ofDigitChars 10 ds 0 = n.toNat := by
  have hvalue : digitsValue ds = Nat.ofDigitChars 10 ds 0 := foldl_digits ds
  rw [number?, hvalue]
  constructor
  · intro h
    split at h
    · exact nomatch h
    · next hfits =>
      obtain rfl := Option.some.inj h
      rw [List.isEmpty_iff, not_or, Nat.not_le] at hfits
      exact ⟨hfits.1, (UInt32.toNat_ofNat_of_lt' hfits.2).symm⟩
  · rintro ⟨hne, hn⟩
    have hsome : ¬ ds.isEmpty = true := mt List.isEmpty_iff.mp hne
    have hsmall : ¬ 4294967296 ≤ n.toNat := Nat.not_le_of_lt n.toNat_lt
    rw [hn, if_neg (not_or.mpr ⟨hsome, hsmall⟩), UInt32.ofNat_toNat]

theorem readNumber?_eq (cs : List Char) :
    readNumber? cs = (number? (cs.takeWhile Char.isDigit)).map fun n => (n, cs.dropWhile Char.isDigit) := by
  rw [readNumber?, number?]
  split <;> rfl

/-- A number is read from the digits at the start, however many they are. -/
theorem readNumber?_eq_some_iff {cs rest : List Char} {n : UInt32} : readNumber? cs = some (n, rest) ↔
    ∃ digits, Writes digits n ∧ cs = digits.toList ++ rest ∧ Halts Char.isDigit rest := by
  rw [readNumber?_eq]
  simp only [Option.map_eq_some_iff, Prod.mk.injEq, number?_eq_some_iff]
  constructor
  · rintro ⟨_, ⟨hne, hvalue⟩, rfl, rfl⟩
    have hdigits : ∀ c ∈ cs.takeWhile Char.isDigit, c.isDigit = true := fun c hc => List.mem_takeWhile_imp hc
    refine ⟨String.ofList (cs.takeWhile Char.isDigit), ⟨isRun_ofList hne hdigits, ?_⟩, ?_, halts_dropWhile _ cs⟩
    · rw [String.toList_ofList, hvalue]
    · rw [String.toList_ofList, List.takeWhile_append_dropWhile]
  · rintro ⟨digits, hwrites, rfl, hrest⟩
    rw [takeWhile_append hwrites.isRun.digits hrest, dropWhile_append hwrites.isRun.digits hrest]
    exact ⟨n, ⟨hwrites.isRun.ne_nil, hwrites.value⟩, rfl, rfl⟩

theorem readNextNumber?_eq_some_iff {cs rest : List Char} {n : UInt32} : readNextNumber? cs = some (n, rest) ↔
    ∃ cs', cs = '.' :: cs' ∧ readNumber? cs' = some (n, rest) := by
  constructor
  · intro h
    rw [readNextNumber?.eq_def] at h
    split at h
    · exact ⟨_, rfl, h⟩
    · exact nomatch h
  · rintro ⟨cs', rfl, h⟩
    exact h

/-- A version ends where the text ends, after its numbers or after its prerelease. -/
theorem readPrerelease?_eq_some_iff {cs : List Char} {p : Option String} : readPrerelease? cs = some p ↔
    WithinLine p ∧ cs = (Uid.versionTail p).toList := by
  constructor
  · intro h
    rw [readPrerelease?.eq_def] at h
    split at h
    · obtain rfl := Option.some.inj h
      exact ⟨nofun, rfl⟩
    · next rest =>
      split at h
      · exact nomatch h
      · next hrest =>
        obtain rfl := Option.some.inj h
        rw [List.isEmpty_iff, not_or] at hrest
        refine ⟨?_, by simp [Uid.versionTail]⟩
        intro text htext
        obtain rfl := Option.some.inj htext
        refine ⟨?_, by simpa using hrest.2⟩
        intro hempty
        exact hrest.1 (by simpa using congrArg String.toList hempty)
    · exact nomatch h
  · rintro ⟨hline, rfl⟩
    cases p with
    | none => rfl
    | some text =>
      obtain ⟨hempty, hfeed⟩ := hline text rfl
      have hchars : text.toList ≠ [] := fun h => hempty (String.toList_inj.mp h)
      simp [Uid.versionTail, readPrerelease?, hchars, hfeed]

/-- **The reader takes the names that state a version**, and no others. -/
theorem runtimeVersion?_eq_some_iff {image : String} {v : Entity .runtimeVersion} : runtimeVersion? image = some v ↔
    ∃ major minor patch p, States image major minor patch p ∧ v = .runtimeVersion major minor patch p none := by
  simp only [runtimeVersion?, Option.bind_eq_bind, Option.bind_eq_some_iff, Option.pure_def, Option.some.injEq,
    dropPrefix?_eq_some_iff, readNextNumber?_eq_some_iff, readNumber?_eq_some_iff, readPrerelease?_eq_some_iff,
    Prod.exists]
  constructor
  · rintro ⟨_, hstart, major, _, ⟨a, ha, rfl, -⟩, minor, _, ⟨_, rfl, b, hb, rfl, -⟩, patch, _,
      ⟨_, rfl, c, hc, rfl, -⟩, p, ⟨hline, rfl⟩, rfl⟩
    exact ⟨major, minor, patch, p, ⟨hline, a, b, c, ha, hb, hc, image_eq_iff.mpr hstart⟩, rfl⟩
  · rintro ⟨major, minor, patch, p, ⟨hline, a, b, c, ha, hb, hc, himage⟩, rfl⟩
    have hpoint : ∀ rest, Halts Char.isDigit ('.' :: rest) := halts_cons (by decide)
    have hend : Halts Char.isDigit (Uid.versionTail p).toList := Uid.halts_versionTail (by decide) p
    exact ⟨_, image_eq_iff.mp himage, major, _, ⟨a, ha, rfl, hpoint _⟩, minor, _, ⟨_, rfl, b, hb, rfl, hpoint _⟩,
      patch, _, ⟨_, rfl, c, hc, rfl, hend⟩, p, ⟨hline, rfl⟩, rfl⟩

theorem runtimeVersion_eq_ok_iff {image : String} {v : Entity .runtimeVersion} : runtimeVersion image = .ok v ↔
    ∃ major minor patch p, States image major minor patch p ∧ v = .runtimeVersion major minor patch p none := by
  rw [← runtimeVersion?_eq_some_iff, runtimeVersion]
  cases runtimeVersion? image <;> simp

/-! ### What the pattern captures -/

/-- The groups of the pattern: three runs of digits, and what comes after the dash. -/
@[ext]
structure Groups where
  major : String
  minor : String
  patch : String
  prerelease : Option String

/-- The characters that `\d` stands for: among them those from `0` to `9`, but no point, no dash and no plus sign. -/
structure DigitClass (digit : Char → Bool) : Prop where
  ascii : ∀ c : Char, c.isDigit = true → digit c = true
  point : digit '.' = false
  dash : digit '-' = false
  plus : digit '+' = false

/-- The pattern matches a name, with these groups. -/
structure Groups.Match (digit : Char → Bool) (image : String) (g : Groups) : Prop where
  image_eq : image = "dolittle/runtime:" ++ g.major ++ "." ++ g.minor ++ "." ++ g.patch ++ Uid.versionTail g.prerelease
  major : IsRun digit g.major
  minor : IsRun digit g.minor
  patch : IsRun digit g.patch
  prerelease : WithinLine g.prerelease

/-- What a matcher captures: the groups of a match, and nothing only if the pattern does not match. -/
def Captured (digit : Char → Bool) (image : String) : Option Groups → Prop
  | some g => g.Match digit image
  | none => ∀ g : Groups, ¬ g.Match digit image

/-- The digits of a number, after its sign. -/
def afterPlus : List Char → List Char
  | '+' :: ds => ds
  | ds => ds

/-- The number below `2 ^ 32` that a text writes in digits from `0` to `9`; a plus sign may come first. -/
def parseNumber? (text : String) : Option UInt32 :=
  let ds := afterPlus text.toList
  if ds.all Char.isDigit then number? ds else none

/-- The version that is made of what a matcher captures, if each number can be parsed. -/
def versionOf? (captures : String → Option Groups) (image : String) : Option (Entity .runtimeVersion) := do
  let g ← captures image
  let major ← parseNumber? g.major
  let minor ← parseNumber? g.minor
  let patch ← parseNumber? g.patch
  return .runtimeVersion major minor patch g.prerelease none

section Pattern

variable {digit : Char → Bool} {image : String} {g g' : Groups}

/-- **The pattern matches in one way at most.** -/
theorem Groups.Match.unique (hdigit : DigitClass digit) (h : g.Match digit image) (h' : g'.Match digit image) : g = g' := by
  have hchars := (image_eq_iff.mp h.image_eq).symm.trans (image_eq_iff.mp h'.image_eq)
  rw [List.append_cancel_left_eq] at hchars
  -- each number ends where the mark after it begins
  have hpoint : ∀ rest, Halts digit ('.' :: rest) := halts_cons hdigit.point
  have hend : ∀ p, Halts digit (Uid.versionTail p).toList := Uid.halts_versionTail hdigit.dash
  obtain ⟨hmajor, hchars⟩ := run_inj h.major.digits (hpoint _) h'.major.digits (hpoint _) hchars
  obtain ⟨hminor, hchars⟩ := run_inj h.minor.digits (hpoint _) h'.minor.digits (hpoint _) (List.cons.inj hchars).2
  obtain ⟨hpatch, htail⟩ := run_inj h.patch.digits (hend _) h'.patch.digits (hend _) (List.cons.inj hchars).2
  rw [String.toList_inj] at hmajor hminor hpatch htail
  exact Groups.ext hmajor hminor hpatch (Uid.versionTail_inj htail)

theorem afterPlus_eq {ds : List Char} (h : '+' ∉ ds) : afterPlus ds = ds := by
  rw [afterPlus.eq_def]
  split
  · exact absurd List.mem_cons_self h
  · rfl

/-- A run of digits of any script is parsed if it writes a number in those from `0` to `9`. -/
theorem parseNumber?_eq_some_iff (hdigit : DigitClass digit) {text : String} (hrun : IsRun digit text) {n : UInt32} :
    parseNumber? text = some n ↔ Writes text n := by
  have hplus : '+' ∉ text.toList := by
    intro hmem
    exact absurd (hrun.digits _ hmem) (by simp [hdigit.plus])
  rw [parseNumber?, afterPlus_eq hplus]
  constructor
  · intro h
    split at h
    · next hall => exact ⟨⟨hrun.ne_nil, List.all_eq_true.mp hall⟩, (number?_eq_some_iff.mp h).2⟩
    · exact nomatch h
  · intro h
    rw [if_pos (List.all_eq_true.mpr h.isRun.digits)]
    exact number?_eq_some_iff.mpr ⟨hrun.ne_nil, h.value⟩

theorem Writes.isRun_of_class (hdigit : DigitClass digit) {text : String} {n : UInt32} (h : Writes text n) :
    IsRun digit text := ⟨h.isRun.ne_nil, fun c hc => hdigit.ascii c (h.isRun.digits c hc)⟩

/-- The pattern matches a name that states a version, with the numbers as the name writes them. -/
theorem exists_match (hdigit : DigitClass digit) {major minor patch : UInt32} {p : Option String}
    (h : States image major minor patch p) : ∃ g : Groups, g.Match digit image ∧ Writes g.major major ∧
      Writes g.minor minor ∧ Writes g.patch patch ∧ g.prerelease = p := by
  obtain ⟨hline, a, b, c, ha, hb, hc, himage⟩ := h
  refine ⟨⟨a, b, c, p⟩, ?_, ha, hb, hc, rfl⟩
  exact ⟨himage, ha.isRun_of_class hdigit, hb.isRun_of_class hdigit, hc.isRun_of_class hdigit, hline⟩

/-- What a name states is what its groups are parsed to. -/
theorem states_iff (hdigit : DigitClass digit) (h : g.Match digit image) {major minor patch : UInt32}
    {p : Option String} : States image major minor patch p ↔ parseNumber? g.major = some major ∧
      parseNumber? g.minor = some minor ∧ parseNumber? g.patch = some patch ∧ g.prerelease = p := by
  rw [parseNumber?_eq_some_iff hdigit h.major, parseNumber?_eq_some_iff hdigit h.minor,
    parseNumber?_eq_some_iff hdigit h.patch]
  constructor
  · intro hstates
    obtain ⟨g', hmatch, hwrites⟩ := exists_match hdigit hstates
    obtain rfl := h.unique hdigit hmatch
    exact hwrites
  · rintro ⟨hmajor, hminor, hpatch, rfl⟩
    exact ⟨h.prerelease, g.major, g.minor, g.patch, hmajor, hminor, hpatch, h.image_eq⟩

/-- **Parsing what the pattern captures gives what the reader gives**, whatever the digits of other scripts are. -/
theorem versionOf?_eq (hdigit : DigitClass digit) {captures : String → Option Groups}
    (h : Captured digit image (captures image)) : versionOf? captures image = runtimeVersion? image := by
  ext v
  rw [runtimeVersion?_eq_some_iff, versionOf?]
  cases hg : captures image with
  | none =>
    rw [hg] at h
    constructor
    · exact nofun
    · rintro ⟨major, minor, patch, p, hstates, -⟩
      obtain ⟨g, hmatch, -⟩ := exists_match hdigit hstates
      exact absurd hmatch (h g)
  | some g =>
    rw [hg] at h
    simp only [states_iff hdigit h, Option.bind_eq_bind, Option.bind_some, Option.bind_eq_some_iff, Option.pure_def,
      Option.some.injEq]
    constructor
    · rintro ⟨major, hmajor, minor, hminor, patch, hpatch, rfl⟩
      exact ⟨major, minor, patch, _, ⟨hmajor, hminor, hpatch, rfl⟩, rfl⟩
    · rintro ⟨major, minor, patch, _, ⟨hmajor, hminor, hpatch, rfl⟩, rfl⟩
      exact ⟨major, hmajor, minor, hminor, patch, hpatch, rfl⟩

end Pattern

/-! ### Versions and their uids -/

theorem WithinLine.filter_eq {p : Option String} (h : WithinLine p) : (p.filter fun text => text ≠ "") = p := by
  cases p with
  | none => rfl
  | some text =>
    have hne : text ≠ "" := (h text rfl).1
    simp [Option.filter_some, hne]

/-- The name of the image that the uid of a version makes. -/
theorem states_uid (major minor patch : UInt32) {p : Option String} (h : WithinLine p) (released : Option Timestamp) :
    States ("dolittle/runtime:" ++ (Entity.runtimeVersion major minor patch p released).uid.text) major minor patch p := by
  refine ⟨h, _, _, _, writes_repr major, writes_repr minor, writes_repr patch, ?_⟩
  have huid : (Entity.runtimeVersion major minor patch p released).uid = .runtimeVersion major minor patch p := by
    show Uid.runtimeVersion major minor patch (p.filter fun text => text ≠ "") = _
    rw [h.filter_eq]
  rw [huid, Uid.text_runtimeVersion, h.filter_eq]
  simp only [String.append_assoc]

/-- Versions that are stated are told by their uids. -/
theorem eq_of_uid {image image' : String} {v v' : Entity .runtimeVersion} (h : runtimeVersion image = .ok v)
    (h' : runtimeVersion image' = .ok v') (huid : v.uid = v'.uid) : v = v' := by
  obtain ⟨major, minor, patch, p, hstates, rfl⟩ := runtimeVersion_eq_ok_iff.mp h
  obtain ⟨major', minor', patch', p', hstates', rfl⟩ := runtimeVersion_eq_ok_iff.mp h'
  have hnumbers := Uid.runtimeVersion_eq_iff.mp huid
  simp only [hstates.1.filter_eq, hstates'.1.filter_eq, Prod.mk.injEq] at hnumbers
  obtain ⟨rfl, rfl, rfl, rfl⟩ := hnumbers
  rfl

/-- **A version is read from exactly the names that state it**, with the numbers and the prerelease that they state, whatever
class of digits the pattern is matched with; every other name is named in the failure. The name that the uid of a version
makes states that version, and no two versions that are read share a uid. -/
theorem runtimeVersion_exact :
    (∀ (digit : Char → Bool) (captures : String → Option Groups) (image : String), DigitClass digit →
      Captured digit image (captures image) →
        runtimeVersion image = (versionOf? captures image).elim (.error (.unparsableRuntime image)) .ok) ∧
    (∀ image v, runtimeVersion image = .ok v ↔ ∃ major minor patch p, States image major minor patch p ∧
      v = .runtimeVersion major minor patch p none ∧
      v.properties = (⟨major, minor, patch, p, none⟩ : RuntimeVersionProperties)) ∧
    (∀ image, (∀ major minor patch p, ¬ States image major minor patch p) →
      runtimeVersion image = .error (.unparsableRuntime image)) ∧
    (∀ major minor patch p released, WithinLine p →
      runtimeVersion ("dolittle/runtime:" ++ (Entity.runtimeVersion major minor patch p released).uid.text) =
        .ok (.runtimeVersion major minor patch p none)) ∧
    ∀ image image' v v', runtimeVersion image = .ok v → runtimeVersion image' = .ok v' → v.uid = v'.uid → v = v' := by
  refine ⟨?_, ?_, ?_, ?_, ?_⟩
  · intro digit captures image hdigit hcaptured
    rw [versionOf?_eq hdigit hcaptured, runtimeVersion]
    cases runtimeVersion? image <;> rfl
  · intro image v
    rw [runtimeVersion_eq_ok_iff]
    constructor
    · rintro ⟨major, minor, patch, p, hstates, rfl⟩
      refine ⟨major, minor, patch, p, hstates, rfl, ?_⟩
      show (⟨major, minor, patch, p.filter fun text => text ≠ "", none⟩ : RuntimeVersionProperties) = _
      rw [hstates.1.filter_eq]
    · rintro ⟨major, minor, patch, p, hstates, rfl, -⟩
      exact ⟨major, minor, patch, p, hstates, rfl⟩
  · intro image hnone
    cases h : runtimeVersion? image with
    | none => rw [runtimeVersion, h]
    | some v =>
      obtain ⟨major, minor, patch, p, hstates, -⟩ := runtimeVersion?_eq_some_iff.mp h
      exact absurd hstates (hnone major minor patch p)
  · intro major minor patch p released hline
    exact runtimeVersion_eq_ok_iff.mpr ⟨major, minor, patch, p, states_uid major minor patch hline released, rfl⟩
  · intro image image' v v' h h' huid
    exact eq_of_uid h h' huid

/-- The digits of two scripts. -/
def latinOrArabicDigit (c : Char) : Bool := c.isDigit || ('\u0660' ≤ c && c ≤ '\u0669')

theorem digitClass_latinOrArabicDigit : DigitClass latinOrArabicDigit where
  ascii c h := by simp [latinOrArabicDigit, h]
  point := by decide
  dash := by decide
  plus := by decide

/-- A version whose prerelease is read to the end of the name, and an Arabic seven, which the pattern takes and which is no
number. -/
theorem runtimeVersion_of_two_scripts :
    runtimeVersion "dolittle/runtime:7.08.1-rc2-1.0" = .ok (.runtimeVersion 7 8 1 (some "rc2-1.0") none) ∧
    runtimeVersion "dolittle/runtime:\u0667.8.1" = .error (.unparsableRuntime "dolittle/runtime:\u0667.8.1") ∧
    runtimeVersion "dolittle/runtime:7.8.1-rc2" = .ok (.runtimeVersion 7 8 1 (some "rc2") none) := by
  obtain ⟨hcaptures, -, -, huid, -⟩ := runtimeVersion_exact
  have hrun : ∀ {text : String}, text.toList ≠ [] ∧ text.toList.all latinOrArabicDigit = true →
      IsRun latinOrArabicDigit text := fun h => ⟨h.1, List.all_eq_true.mp h.2⟩
  refine ⟨?_, ?_, ?_⟩
  · refine (hcaptures _ (fun _ => some ⟨"7", "08", "1", some "rc2-1.0"⟩) _ digitClass_latinOrArabicDigit ?_).trans rfl
    exact ⟨rfl, hrun (by decide), hrun (by decide), hrun (by decide), by simp [WithinLine]⟩
  · refine (hcaptures _ (fun _ => some ⟨"\u0667", "8", "1", none⟩) _ digitClass_latinOrArabicDigit ?_).trans rfl
    exact ⟨rfl, hrun (by decide), hrun (by decide), hrun (by decide), by simp [WithinLine]⟩
  · exact huid 7 8 1 (some "rc2") none (by simp [WithinLine])

end FleetAtlas.Image
