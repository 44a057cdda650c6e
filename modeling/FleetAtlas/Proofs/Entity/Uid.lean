import FleetAtlas.Cluster.Identity
import FleetAtlas.Proofs.Text.Cut

/-!
# No two things share a uid

* `path_inj`: a path is cut into its parts in one way, if only the last part may have slashes;
* `Uid.restarts_inj`, `Uid.clusterEvent_ne_restarts`: the two kinds of uids of events;
* `Uid.runtimeVersion_eq_iff`: the version of a runtime is told by its numbers and its prerelease;
* `Uid.coordinates_told`: **a uid tells the coordinates that it is made of**.

A uid is a text that its coordinates are written into one after the other. What is read back is where each of them ends:
at the next slash, at the next point, where the digits end, or before an ending of known length.
-/

namespace FleetAtlas

theorem Uid.eq_of_text {f : Family} {a b : Uid f} (h : a.text = b.text) : a = b := by
  obtain ⟨a⟩ := a
  exact congrArg Uid.mk h

/-! ### Paths -/

/-- None of the parts has a slash. -/
def SlashFree (parts : List String) : Prop := ∀ part ∈ parts, '/' ∉ part.toList

instance (parts : List String) : Decidable (SlashFree parts) :=
  inferInstanceAs (Decidable (∀ part ∈ parts, '/' ∉ part.toList))

/-- **Paths of the same number of parts are different**, unless the parts are the same; the last one may have slashes. -/
theorem path_inj {parts parts' : List String} (hlength : parts.length = parts'.length) (h : SlashFree parts.dropLast)
    (h' : SlashFree parts'.dropLast) (heq : "/".intercalate parts = "/".intercalate parts') : parts = parts' := by
  induction parts generalizing parts' with
  | nil => exact (List.eq_nil_of_length_eq_zero hlength.symm).symm
  | cons part rest ih =>
    obtain ⟨part', rest', rfl⟩ := List.exists_cons_of_length_eq_add_one hlength.symm
    have hlength : rest.length = rest'.length := Nat.succ.inj hlength
    cases rest with
    | nil =>
      obtain rfl := List.eq_nil_of_length_eq_zero hlength.symm
      rw [String.intercalate_singleton, String.intercalate_singleton] at heq
      rw [heq]
    | cons next rest =>
      obtain ⟨next', rest', rfl⟩ := List.exists_cons_of_length_eq_add_one hlength.symm
      rw [String.intercalate_cons_cons, String.intercalate_cons_cons] at heq
      rw [List.dropLast_cons_cons] at h h'
      -- the first slash ends the first part
      obtain ⟨hpart, hrest⟩ := Text.mark_inj '/' (h _ List.mem_cons_self) (h' _ List.mem_cons_self) heq
      rw [hpart, ih hlength (fun p hp => h p (.tail _ hp)) (fun p hp => h' p (.tail _ hp)) hrest]

namespace Uid

/-- The deployment is what comes before the pod. -/
theorem deploymentInstance_inj_left {d d' : Uid .deployment} {pod : String}
    (h : deploymentInstance d pod = deploymentInstance d' pod) : d = d' := by
  have htext : d.text ++ "/" ++ pod = d'.text ++ "/" ++ pod := congrArg text h
  rw [String.append_left_inj, String.append_left_inj] at htext
  exact eq_of_text htext

/-! ### Events -/

theorem toList_restarts (u : Uid .deploymentInstance) (platform : Bool) : (restarts u platform).text.toList =
    "restart/".toList ++ (u.text.toList ++ ['/'] ++ (if platform then "platform" else "customer").toList) := by
  simp [restarts]

/-- What is counted ends the uid, and either name has eight letters. -/
theorem restarts_inj {u u' : Uid .deploymentInstance} {platform platform' : Bool}
    (h : restarts u platform = restarts u' platform') : u = u' ∧ platform = platform' := by
  have hchars := congrArg (fun v => v.text.toList) h
  simp only [toList_restarts, List.append_cancel_left_eq] at hchars
  have hlength : (if platform then "platform" else "customer").toList.length =
      (if platform' then "platform" else "customer").toList.length := by
    cases platform <;> cases platform' <;> decide
  obtain ⟨hinstance, hcounted⟩ := List.append_inj' hchars hlength
  constructor
  · exact eq_of_text (String.toList_inj.mp (List.append_cancel_right hinstance))
  · cases platform <;> cases platform' <;> first | rfl | exact absurd hcounted (by decide)

/-- The two kinds of uids start differently. -/
theorem clusterEvent_ne_restarts (id : String) (u : Uid .deploymentInstance) (platform : Bool) :
    (clusterEvent id).text ≠ (restarts u platform).text := by
  intro h
  have hchars := congrArg String.toList h
  simp [clusterEvent, restarts] at hchars

/-! ### Versions -/

/-- The text of a version after its numbers. -/
def versionTail : Option String → String
  | none => ""
  | some prerelease => "-" ++ prerelease

theorem versionTail_inj {p p' : Option String} (h : versionTail p = versionTail p') : p = p' := by
  cases p <;> cases p' <;> simp [versionTail, String.ext_iff] at h ⊢
  exact h

/-- Where the tail begins, digits end. -/
theorem halts_versionTail {digit : Char → Bool} (hdash : digit '-' = false) (p : Option String) :
    Text.Halts digit (versionTail p).toList := by
  cases p with
  | none => exact Text.halts_nil
  | some prerelease =>
    rw [versionTail, String.toList_append]
    exact Text.halts_cons hdash _

theorem text_runtimeVersion (major minor patch : UInt32) (p : Option String) :
    (runtimeVersion major minor patch p).text = Nat.repr major.toNat ++ "." ++ (Nat.repr minor.toNat ++ "." ++
      (Nat.repr patch.toNat ++ versionTail (p.filter fun text => text ≠ ""))) := by
  cases p with
  | none => simp [runtimeVersion, versionTail, String.append_assoc]
  | some text =>
    rw [Option.filter_some]
    by_cases h : text = "" <;> simp [runtimeVersion, versionTail, h, String.append_assoc]

/-- **The version of a runtime is told by its numbers and its prerelease**, the empty one being none. -/
theorem runtimeVersion_eq_iff {major minor patch major' minor' patch' : UInt32} {p p' : Option String} :
    runtimeVersion major minor patch p = runtimeVersion major' minor' patch' p' ↔
      (major, minor, patch, p.filter fun text => text ≠ "") =
        (major', minor', patch', p'.filter fun text => text ≠ "") := by
  constructor
  · intro h
    have htext := congrArg text h
    rw [text_runtimeVersion, text_runtimeVersion] at htext
    have hpoint : ∀ n : UInt32, '.' ∉ (Nat.repr n.toNat).toList := fun n => Text.notMem_repr (by decide) n.toNat
    obtain ⟨hmajor, htext⟩ := Text.mark_inj '.' (hpoint major) (hpoint major') htext
    obtain ⟨hminor, htext⟩ := Text.mark_inj '.' (hpoint minor) (hpoint minor') htext
    -- the patch has no mark after it: it ends with its digits
    have hchars := congrArg String.toList htext
    rw [String.toList_append, String.toList_append] at hchars
    obtain ⟨hpatch, htail⟩ := Text.run_inj Text.isDigit_of_mem_repr (halts_versionTail (by decide) _)
      Text.isDigit_of_mem_repr (halts_versionTail (by decide) _) hchars
    have hnumber : ∀ {n n' : UInt32}, Nat.repr n.toNat = Nat.repr n'.toNat → n = n' := by
      intro n n' hn
      have hread := congrArg (fun digits => Nat.ofDigitChars 10 digits.toList 0) hn
      simp only [Text.ofDigitChars_repr] at hread
      exact UInt32.toNat_inj.mp hread
    rw [hnumber hmajor, hnumber hminor, hnumber (String.toList_inj.mp hpatch),
      versionTail_inj (String.toList_inj.mp htail)]
  · intro h
    simp only [Prod.mk.injEq] at h
    obtain ⟨rfl, rfl, rfl, hprerelease⟩ := h
    refine eq_of_text ?_
    rw [text_runtimeVersion, text_runtimeVersion, hprerelease]

/-! ### All of them -/

/-- **A uid tells the coordinates that it is made of**, if none of them but the last has a slash; the two uids of events and
that of a version of the runtime tell theirs without any condition. -/
theorem coordinates_told :
    (∀ c a c' a', SlashFree [c] → SlashFree [c'] → application c a = application c' a' → [c, a] = [c', a']) ∧
    (∀ c a e c' a' e', SlashFree [c, a] → SlashFree [c', a'] →
      environment c a e = environment c' a' e' → [c, a, e] = [c', a', e']) ∧
    (∀ c a e r c' a' e' r', SlashFree [c, a, e] → SlashFree [c', a', e'] →
      deployment c a e r = deployment c' a' e' r' → [c, a, e, r] = [c', a', e', r']) ∧
    (∀ c m c' m', SlashFree [c] → SlashFree [c'] → artifact c m = artifact c' m' → [c, m] = [c', m']) ∧
    (∀ c m v c' m' v', SlashFree [c, m] → SlashFree [c', m'] →
      artifactVersion c m v = artifactVersion c' m' v' → [c, m, v] = [c', m', v']) ∧
    (∀ c a e m h c' a' e' m' h', SlashFree [c, a, e, m] → SlashFree [c', a', e', m'] →
      artifactConfiguration c a e m h = artifactConfiguration c' a' e' m' h' → [c, a, e, m, h] = [c', a', e', m', h']) ∧
    (∀ c a e m h c' a' e' m' h', SlashFree [c, a, e, m] → SlashFree [c', a', e', m'] →
      runtimeConfiguration c a e m h = runtimeConfiguration c' a' e' m' h' → [c, a, e, m, h] = [c', a', e', m', h']) ∧
    (∀ (i i' : Identity) (r p r' p' : String), SlashFree [i.tenantId, i.applicationId, i.environment, r] →
      SlashFree [i'.tenantId, i'.applicationId, i'.environment, r'] → i.instanceUid r p = i'.instanceUid r' p' →
        [i.tenantId, i.applicationId, i.environment, r, p] = [i'.tenantId, i'.applicationId, i'.environment, r', p']) ∧
    (∀ u platform u' platform', restarts u platform = restarts u' platform' → u = u' ∧ platform = platform') ∧
    (∀ id u platform, clusterEvent id ≠ restarts u platform) ∧
    ∀ major minor patch p major' minor' patch' p',
      runtimeVersion major minor patch p = runtimeVersion major' minor' patch' p' ↔
        (major, minor, patch, p.filter fun text => text ≠ "") =
          (major', minor', patch', p'.filter fun text => text ≠ "") := by
  refine ⟨?_, ?_, ?_, ?_, ?_, ?_, ?_, ?_, ?_, ?_, ?_⟩
  · intro c a c' a' hfree hfree' heq
    exact path_inj rfl hfree hfree' (congrArg text heq)
  · intro c a e c' a' e' hfree hfree' heq
    exact path_inj rfl hfree hfree' (congrArg text heq)
  · intro c a e r c' a' e' r' hfree hfree' heq
    exact path_inj rfl hfree hfree' (congrArg text heq)
  · intro c m c' m' hfree hfree' heq
    exact path_inj rfl hfree hfree' (congrArg text heq)
  · intro c m v c' m' v' hfree hfree' heq
    exact path_inj rfl hfree hfree' (congrArg text heq)
  · intro c a e m h c' a' e' m' h' hfree hfree' heq
    exact path_inj rfl hfree hfree' (congrArg text heq)
  · intro c a e m h c' a' e' m' h' hfree hfree' heq
    exact path_inj rfl hfree hfree' (congrArg text heq)
  · intro i i' r p r' p' hfree hfree' heq
    exact path_inj rfl hfree hfree' (congrArg text heq)
  · intro u platform u' platform' heq
    exact restarts_inj heq
  · intro id u platform heq
    exact clusterEvent_ne_restarts id u platform (congrArg text heq)
  · intro major minor patch p major' minor' patch' p'
    exact runtimeVersion_eq_iff

/-- A revision, a version and a count whose coordinates differ by a slash or by the text after it. -/
theorem told_apart_releases :
    deployment "t1" "a1" "Prod" "4/a" ≠ deployment "t1" "a1" "Prod" "4" ∧
    artifactVersion "t1" "m1" "team/shop:2" ≠ artifactVersion "t1" "m1" "shop:2" ∧
    restarts ⟨"t1/a1/Prod/4/pod"⟩ true ≠ restarts ⟨"t1/a1/Prod/4/pod/platform"⟩ false := by
  obtain ⟨-, -, hdeployment, -, hversion, -, -, -, hrestarts, -⟩ := coordinates_told
  refine ⟨fun h => ?_, fun h => ?_, fun h => ?_⟩
  · exact absurd (hdeployment _ _ _ _ _ _ _ _ (by decide) (by decide) h) (by decide)
  · exact absurd (hversion _ _ _ _ _ _ (by decide) (by decide) h) (by decide)
  · exact absurd (hrestarts _ _ _ _ h).2 (by decide)

/-- Before the last coordinate, a slash is not told from the one that ends it. -/
example : application "t1/a1" "x" = application "t1" "a1/x" := rfl

end Uid

end FleetAtlas
