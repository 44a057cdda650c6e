import FleetAtlas.Proofs.Cluster.RuntimeImage

/-!
# Names of artifact images

* `Image.Hosted`: the names that begin with the host of an Azure registry, and what follows it;
* `Image.Parts.Match`: what the pattern `^([A-Za-z0-9]+\.azurecr\.io/)?(.+)$` matches; `Image.Preferred`: what a matcher captures,
  which takes a host whenever it can;
* `afterHost?_eq_some_iff`, `artifactName_of_hosted`, `artifactName_of_not_hosted`: what the reader leaves out;
* `artifactName_exact`: **only the host of an Azure registry is left out**, and only once.
-/

namespace FleetAtlas.Image

open FleetAtlas.Text

/-! ### Names with a host -/

/-- A name within one line that has the host of an Azure registry, a run of ASCII letters and digits before the domain, and
something after it. -/
structure Hosted (image rest : String) : Prop where
  line : '\n' ∉ image.toList
  ne_empty : rest ≠ ""
  host : ∃ h, IsRun Char.isAlphanum h ∧ image = h ++ ".azurecr.io/" ++ rest

/-- Where the parts of such a name stand. -/
theorem hosted_eq_iff {image h rest : String} :
    image = h ++ ".azurecr.io/" ++ rest ↔ image.toList = h.toList ++ (registryDomain ++ rest.toList) := by
  refine String.toList_inj.symm.trans ?_
  rw [String.toList_append, String.toList_append, List.append_assoc]
  exact Iff.rfl

theorem halts_registryDomain (rest : List Char) : Halts Char.isAlphanum (registryDomain ++ rest) :=
  halts_cons (by decide) _

/-! ### What the reader leaves out -/

theorem afterHost?_eq_some_iff {cs rest : List Char} : afterHost? cs = some rest ↔
    ∃ h, IsRun Char.isAlphanum h ∧ cs = h.toList ++ (registryDomain ++ rest) := by
  rw [afterHost?]
  constructor
  · intro h
    split at h
    · exact nomatch h
    · next hne =>
      have hrun : ∀ c ∈ cs.takeWhile Char.isAlphanum, c.isAlphanum = true := fun c hc => List.mem_takeWhile_imp hc
      refine ⟨String.ofList (cs.takeWhile Char.isAlphanum), isRun_ofList (mt List.isEmpty_iff.mpr hne) hrun, ?_⟩
      rw [String.toList_ofList, ← dropPrefix?_eq_some_iff.mp h, List.takeWhile_append_dropWhile]
  · rintro ⟨h, hrun, rfl⟩
    have hhalts := halts_registryDomain rest
    rw [takeWhile_append hrun.digits hhalts, dropWhile_append hrun.digits hhalts,
      if_neg (mt List.isEmpty_iff.mp hrun.ne_nil)]
    exact dropPrefix?_eq_some_iff.mpr rfl

/-- A line feed in such a name comes after the host. -/
theorem lineFeed_mem_iff {h rest : List Char} (hrun : ∀ c ∈ h, c.isAlphanum = true) :
    '\n' ∈ h ++ (registryDomain ++ rest) ↔ '\n' ∈ rest := by
  have hhost : '\n' ∉ h := fun hmem => absurd (hrun _ hmem) (by decide)
  have hdomain : '\n' ∉ registryDomain := by decide
  simp [hhost, hdomain]

theorem artifactName_of_hosted {image rest : String} (h : Hosted image rest) : artifactName image = rest := by
  obtain ⟨hline, hne, host, hrun, himage⟩ := h
  have hchars := hosted_eq_iff.mp himage
  have hafter : afterHost? image.toList = some rest.toList := afterHost?_eq_some_iff.mpr ⟨host, hrun, hchars⟩
  rw [hchars, lineFeed_mem_iff hrun.digits] at hline
  have hsome : ¬ rest.toList.isEmpty = true := fun he => hne (String.toList_inj.mp (List.isEmpty_iff.mp he))
  rw [artifactName, artifactChars, hafter]
  simp only [if_neg (not_or.mpr ⟨hsome, hline⟩), String.ofList_toList]

theorem artifactName_of_not_hosted {image : String} (h : ∀ rest, ¬ Hosted image rest) : artifactName image = image := by
  have hchars : artifactChars image.toList = image.toList := by
    rw [artifactChars]
    cases hafter : afterHost? image.toList with
    | none => rfl
    | some rest =>
      obtain ⟨host, hrun, hcs⟩ := afterHost?_eq_some_iff.mp hafter
      refine if_pos (Decidable.byContradiction fun hrest => h (String.ofList rest) ?_)
      rw [not_or] at hrest
      have hcs' : image.toList = host.toList ++ (registryDomain ++ (String.ofList rest).toList) := by
        rw [String.toList_ofList, hcs]
      refine ⟨?_, ?_, host, hrun, hosted_eq_iff.mpr hcs'⟩
      · rw [hcs, lineFeed_mem_iff hrun.digits]
        exact hrest.2
      · intro he
        exact hrest.1 (by simpa using congrArg String.toList he)
  rw [artifactName, hchars, String.ofList_toList]

theorem artifactName_cases (image : String) : Hosted image (artifactName image) ∨
    (∀ rest, ¬ Hosted image rest) ∧ artifactName image = image := by
  by_cases h : ∃ rest, Hosted image rest
  · obtain ⟨rest, hrest⟩ := h
    exact .inl ((artifactName_of_hosted hrest).symm ▸ hrest)
  · exact .inr ⟨not_exists.mp h, artifactName_of_not_hosted (not_exists.mp h)⟩

/-! ### What the pattern captures -/

/-- The groups of the pattern: the host with its slash, which may be left out, and the name. -/
structure Parts where
  host : Option String
  name : String

/-- The pattern matches a name, with these groups. -/
structure Parts.Match (image : String) (p : Parts) : Prop where
  image_eq : image = p.host.getD "" ++ p.name
  host : ∀ h ∈ p.host, ∃ run, IsRun Char.isAlphanum run ∧ h = run ++ ".azurecr.io/"
  name : p.name ≠ "" ∧ '\n' ∉ p.name.toList

/-- What a matcher captures: the groups of a match, without a host only if no match has one, and nothing only if the pattern does
not match. -/
def Preferred (image : String) : Option Parts → Prop
  | some p => p.Match image ∧ (p.host = none → ∀ q : Parts, q.Match image → q.host = none)
  | none => ∀ q : Parts, ¬ q.Match image

/-- A match with a host is one of a name that has a host. -/
theorem Parts.Match.hosted {image host : String} {p : Parts} (h : p.Match image) (hhost : p.host = some host) :
    Hosted image p.name := by
  obtain ⟨run, hrun, rfl⟩ := h.host host hhost
  have himage : image = run ++ ".azurecr.io/" ++ p.name := by
    rw [h.image_eq, hhost]
    rfl
  refine ⟨?_, h.name.1, run, hrun, himage⟩
  rw [hosted_eq_iff.mp himage, lineFeed_mem_iff hrun.digits]
  exact h.name.2

theorem Hosted.exists_match {image rest : String} (h : Hosted image rest) :
    ∃ host, (⟨some host, rest⟩ : Parts).Match image := by
  obtain ⟨run, hrun, himage⟩ := h.host
  refine ⟨run ++ ".azurecr.io/", himage, ?_, h.ne_empty, ?_⟩
  · rintro _ ⟨⟩
    exact ⟨run, hrun, rfl⟩
  · have hline := h.line
    rw [hosted_eq_iff.mp himage, lineFeed_mem_iff hrun.digits] at hline
    exact hline

/-- **What the pattern captures as the name** is what the reader leaves, whichever matcher is used. -/
theorem artifactName_eq_captured {image : String} {captured : Option Parts} (h : Preferred image captured) :
    artifactName image = (captured.map Parts.name).getD image := by
  cases captured with
  | none =>
    refine artifactName_of_not_hosted fun rest hrest => ?_
    obtain ⟨host, hmatch⟩ := hrest.exists_match
    exact h _ hmatch
  | some p =>
    obtain ⟨hmatch, hpreferred⟩ := h
    cases hhost : p.host with
    | some host => exact artifactName_of_hosted (hmatch.hosted hhost)
    | none =>
      have hname : image = p.name := by simpa [hhost] using hmatch.image_eq
      rw [Option.map_some, Option.getD_some, ← hname]
      refine artifactName_of_not_hosted fun rest hrest => ?_
      obtain ⟨host, hother⟩ := hrest.exists_match
      exact nomatch hpreferred hhost _ hother

/-- **Only the host of an Azure registry is left out**, of a name within one line that has something after it; every other name
stays as it is. So what is left of a name is an end of it, and not empty; it is what the pattern captures as the name. -/
theorem artifactName_exact :
    (∀ image rest, Hosted image rest → artifactName image = rest) ∧
    (∀ image, (∀ rest, ¬ Hosted image rest) → artifactName image = image) ∧
    (∀ image, image ≠ "" → artifactName image ≠ "" ∧ (artifactName image).toList <:+ image.toList) ∧
    ∀ (captures : String → Option Parts) (image : String), Preferred image (captures image) →
      artifactName image = ((captures image).map Parts.name).getD image := by
  refine ⟨fun _ _ => artifactName_of_hosted, fun _ => artifactName_of_not_hosted, fun image hne => ?_,
    fun _ _ => artifactName_eq_captured⟩
  rcases artifactName_cases image with h | ⟨-, h⟩
  · obtain ⟨host, -, himage⟩ := h.host
    have hchars := hosted_eq_iff.mp himage
    refine ⟨h.ne_empty, host.toList ++ registryDomain, ?_⟩
    rw [List.append_assoc, ← hchars]
  · rw [h]
    exact ⟨hne, List.suffix_rfl⟩

/-- One host is left out of two, and none of a name that is only a host or that has a line feed. -/
theorem artifactName_two_hosts :
    artifactName "myregistry.azurecr.io/shop-service:1.2.0" = "shop-service:1.2.0" ∧
    artifactName "one.azurecr.io/two.azurecr.io/shop:1.2.0" = "two.azurecr.io/shop:1.2.0" ∧
    artifactName "one.azurecr.io/" = "one.azurecr.io/" ∧
    artifactName "one.azurecr.io/shop\n" = "one.azurecr.io/shop\n" := by
  obtain ⟨hhosted, hother, -, hcaptured⟩ := artifactName_exact
  have hrun {text : String} (h : text.toList ≠ [] ∧ text.toList.all Char.isAlphanum = true) :
      IsRun Char.isAlphanum text := ⟨h.1, List.all_eq_true.mp h.2⟩
  refine ⟨hhosted _ _ ⟨by decide, by decide, "myregistry", hrun (by decide), rfl⟩, ?_, ?_, ?_⟩
  · refine hcaptured (fun _ => some ⟨some "one.azurecr.io/", "two.azurecr.io/shop:1.2.0"⟩) _ ⟨⟨rfl, ?_, by decide⟩, nofun⟩
    rintro _ ⟨⟩
    exact ⟨"one", hrun (by decide), rfl⟩
  · refine hother _ fun rest h => ?_
    obtain ⟨host, hhost, himage⟩ := h.host
    have hafter := afterHost?_eq_some_iff.mpr ⟨host, hhost, hosted_eq_iff.mp himage⟩
    have hnothing : afterHost? "one.azurecr.io/".toList = some [] := by decide
    have hrest : rest.toList = [] := Option.some.inj (hafter.symm.trans hnothing)
    exact h.ne_empty (String.toList_eq_nil_iff.mp hrest)
  · exact hother _ fun rest h => h.line (by decide)

end FleetAtlas.Image
