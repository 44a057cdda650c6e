import FleetAtlas.Handler.Events
import FleetAtlas.Proofs.Handler.RestartGroups
import FleetAtlas.Proofs.Instance.Naming

/-!
# What is stored about waiting before the next try

Events of the cluster and statuses of containers both tell the platform's container from the others: by a part of the path of
what an event is about, and by the name in a status.

* `hasPart_iff`: whether a text has another one in it; `infix_append_cons_iff`, `infix_between_iff`: marks that are not in the
  text do not matter;
* `ContainerStatus.AddsTo`, `ContainerStatus.addsTo_iff`: the group that a status is added to;
* `containerPath`, `hasPart_containerPath`: of the path of a container, only its name matters;
* `Observed.call_says_platform`: **an event of the cluster is the platform's** if the name of its container has the name of the
  platform's container in it, restarts are if the names are equal, and they agree on all names but the longer ones;
* `Observed.call_says_proxy`: there are such names.
-/

namespace FleetAtlas

open FleetAtlas.Task

/-! ### Parts of a text -/

section Parts

variable {α : Type} {part l m : List α} {d : α}

theorem hasPart_iff {part cs : List Char} : hasPart part cs = true ↔ part <:+: cs := by
  induction cs with
  | nil => rw [hasPart, List.isEmpty_iff, List.infix_nil]
  | cons c cs ih => rw [hasPart, Bool.or_eq_true, List.isPrefixOf_iff_prefix, ih, List.infix_cons_iff]

theorem prefix_append_cons_iff (hd : d ∉ part) : part <+: l ++ d :: m ↔ part <+: l := by
  refine ⟨fun h => ?_, fun h => h.trans (List.prefix_append l _)⟩
  have hmark : l ++ [d] <+: l ++ d :: m := ⟨m, by simp⟩
  rcases List.prefix_or_prefix_of_prefix h hmark with hpart | hlonger
  · rcases List.prefix_concat_iff.mp hpart with rfl | hpart
    · exact absurd List.mem_concat_self hd
    · exact hpart
  · exact absurd (hlonger.subset List.mem_concat_self) hd

/-- **A mark that is not in the part** has it before itself or after itself. -/
theorem infix_append_cons_iff (hd : d ∉ part) : part <:+: l ++ d :: m ↔ part <:+: l ∨ part <:+: m := by
  induction l with
  | nil =>
    have hhead : part <+: d :: m ↔ part <+: [] := prefix_append_cons_iff (l := []) hd
    rw [List.nil_append, List.infix_cons_iff, hhead, List.prefix_nil, List.infix_nil]
  | cons c l ih =>
    have hhead : part <+: c :: (l ++ d :: m) ↔ part <+: c :: l := prefix_append_cons_iff (l := c :: l) hd
    rw [List.cons_append, List.infix_cons_iff, hhead, ih, List.infix_cons_iff, or_assoc]

/-- **What stands between two marks** that are not in the part. -/
theorem infix_between_iff {before after : List α} {d' : α} (hd : d ∉ part) (hd' : d' ∉ part) :
    part <:+: before ++ d :: (l ++ d' :: after) ↔ part <:+: before ∨ part <:+: l ∨ part <:+: after := by
  rw [infix_append_cons_iff hd, infix_append_cons_iff hd']

end Parts

/-! ### The group of a status -/

namespace ContainerStatus

/-- A status that counts is added to the restarts of a group, and not to those of the other one. -/
structure AddsTo (s : ContainerStatus) (time : Timestamp) (platform : Bool) : Prop where
  added : ∀ before, restartsOf (before ++ [s]) platform = (restartsOf before platform).add s.restarts time
  spared : ∀ before, restartsOf (before ++ [s]) (!platform) = restartsOf before (!platform)

variable {s : ContainerStatus} {time : Timestamp} {platform : Bool}

theorem countsOf_append (before : List ContainerStatus) (platform : Bool) (h : s.Counts time) :
    countsOf (before ++ [s]) platform =
      countsOf before platform ++ if s.isPlatform = platform then [(s.restarts, time)] else [] := by
  have hcounted : s.counted? = some (s.restarts, time) := counted?_eq_some_iff.mpr ⟨rfl, h⟩
  rw [countsOf, List.filter_append, List.filterMap_append, List.filter_singleton]
  by_cases hgroup : s.isPlatform = platform
  · simp [hgroup, hcounted, countsOf]
  · simp [hgroup, countsOf]

/-- **The group of a status** is told by its name. -/
theorem addsTo_iff (h : s.Counts time) : s.AddsTo time platform ↔ s.isPlatform = platform := by
  have happend (before : List ContainerStatus) (group : Bool) : restartsOf (before ++ [s]) group =
      if s.isPlatform = group then (restartsOf before group).add s.restarts time else restartsOf before group := by
    rw [restartsOf_eq_foldl, countsOf_append before group h, List.foldl_append, ← restartsOf_eq_foldl]
    split <;> rfl
  constructor
  · intro hadds
    -- with nothing before it, a status of the other group would be seen there
    have hspared := hadds.spared []
    rw [happend] at hspared
    split at hspared
    · exact nomatch congrArg Restarts.span hspared
    · next hne => exact Bool.not_eq_not.mp hne
  · intro hgroup
    refine ⟨fun before => ?_, fun before => ?_⟩
    · rw [happend, if_pos hgroup]
    · rw [happend, if_neg (by rw [hgroup]; exact Bool.self_ne_not platform)]

end ContainerStatus

/-! ### The path of a container -/

/-- The path of a container in its pod. -/
def containerPath (name : String) : String := "spec.containers\x7b" ++ name ++ "\x7d"

theorem toList_containerPath (name : String) :
    (containerPath name).toList = "spec.containers".toList ++ '\x7b' :: (name.toList ++ '\x7d' :: []) := by
  have hopening : "spec.containers\x7b".toList = "spec.containers".toList ++ ['\x7b'] := by decide
  have hclosing : "\x7d".toList = ['\x7d'] := by decide
  show ("spec.containers\x7b" ++ name ++ "\x7d").toList = _
  rw [String.toList_append, String.toList_append, hopening, hclosing, List.append_assoc, List.append_assoc,
    List.singleton_append]

/-- **Of the path of a container**, only its name matters. -/
theorem hasPart_containerPath (name : String) :
    hasPart runtimeContainer.toList (containerPath name).toList = true ↔ runtimeContainer.toList <:+: name.toList := by
  have hopening : '\x7b' ∉ runtimeContainer.toList := by decide
  have hclosing : '\x7d' ∉ runtimeContainer.toList := by decide
  have hbefore : ¬ runtimeContainer.toList <:+: "spec.containers".toList := by
    rw [← hasPart_iff]
    decide
  have hafter : ¬ runtimeContainer.toList <:+: [] := by
    rw [List.infix_nil]
    decide
  rw [hasPart_iff, toList_containerPath, infix_between_iff hopening hclosing]
  simp only [hbefore, hafter, false_or, or_false]

/-! ### What is stored -/

variable {c : Caches} {e : ClusterEvent}

theorem platform_of_eventEntity? {entity : Event} {name : String} (h : eventEntity? c e = some entity)
    (hpath : e.involved.fieldPath = some (containerPath name)) :
    entity.info.platform = true ↔ runtimeContainer.toList <:+: name.toList := by
  obtain ⟨_, _, _, -, -, -, -, rfl⟩ := exists_of_eventEntity? h
  rw [← hasPart_containerPath, hpath]
  rfl

/-- **What says that the platform's container failed.**  Let a call for an event of the cluster store an event, and let the event
be about the container of a name.  It is the platform's exactly if the name has the name of the platform's container in it;
restarts in a status of this container are added to the platform's exactly if the names are equal.  So they agree on a name
exactly if it does not go on before or after the name of the platform's container. -/
theorem Observed.call_says_platform {deleted : Bool} {cached : List Pod} {site : Site} {uid : Uid .event} {name : String}
    (hpath : e.involved.fieldPath = some (containerPath name))
    (h : Wrote site (Observed.call .events c e deleted cached site).2 .event uid.text) :
    ∃ stored : Event, (Observed.call .events c e deleted cached site).2.service.store.fetch? uid = some stored ∧
      (stored.info.platform = true ↔ runtimeContainer.toList <:+: name.toList) ∧
      ∀ (s : ContainerStatus) time, s.name = name → s.Counts time →
        (s.AddsTo time true ↔ name = runtimeContainer) ∧ (s.AddsTo time false ↔ name ≠ runtimeContainer) ∧
        ((stored.info.platform = true ↔ s.AddsTo time true) ↔
          (runtimeContainer.toList <:+: name.toList → name = runtimeContainer)) := by
  obtain ⟨s₁, r, s₂, hlast⟩ := (writes_handleEvent c e deleted site.service.store).exists_last trivial h
  obtain ⟨entity, hentity, rfl⟩ := hlast.admitted
  obtain rfl : entity.uid = uid := Uid.eq_of_text hlast.uid_eq
  obtain ⟨stored, hfetch, hproperties⟩ := Store.fetch?_set_self hlast.set
  have hplatform : (Event.info stored).platform = true ↔ runtimeContainer.toList <:+: name.toList := by
    rw [← platform_of_eventEntity? hentity hpath]
    unfold Event.info
    rw [hproperties]
  refine ⟨stored, (Store.fetch?_congr hlast.get_eq).trans hfetch, hplatform, fun s time hname hcounts => ?_⟩
  have hgroup : s.isPlatform = decide (name = runtimeContainer) := by rw [ContainerStatus.isPlatform, hname]
  have hadds : s.AddsTo time true ↔ name = runtimeContainer := by
    rw [ContainerStatus.addsTo_iff hcounts, hgroup, decide_eq_true_iff]
  refine ⟨hadds, ?_, ?_⟩
  · rw [ContainerStatus.addsTo_iff hcounts, hgroup, decide_eq_false_iff_not]
  · rw [hplatform, hadds]
    refine ⟨Iff.mp, fun hlonger => ⟨hlonger, ?_⟩⟩
    rintro rfl
    exact List.infix_rfl

/-! ### Containers of the shop -/

/-- A container of the shop's pod does not start. -/
def backOffOf (name : String) : ClusterEvent :=
  { shopBackOff with involved := { shopBackOff.involved with fieldPath := some (containerPath name) } }

/-- The event is handled while nothing is stored. -/
def backOffSite (name : String) : Site := (Observed.call .events servedCaches (backOffOf name) false [] emptySite).2

/-- What is stored of an event of the cluster. -/
def backOffUid : Uid .event := .clusterEvent "e"

/-- A container was restarted once. -/
def restartedOnce (name : String) : ContainerStatus := ⟨name, 1, some ⟨some .epoch⟩, none⟩

theorem counts_restartedOnce (name : String) : (restartedOnce name).Counts .epoch :=
  ⟨show (0 : Int32) < 1 by decide, _, rfl, .inl rfl⟩

/-- Of the platform's container, the event and the restarts say the same. -/
theorem Observed.call_says_runtime :
    Wrote emptySite (backOffSite runtimeContainer) .event backOffUid.text ∧
    ∃ stored : Event, (backOffSite runtimeContainer).service.store.fetch? backOffUid = some stored ∧
      stored.info.platform = true ∧ (restartedOnce runtimeContainer).AddsTo .epoch true := by
  have hwrote : Wrote emptySite (backOffSite runtimeContainer) .event backOffUid.text := .of_mem rfl (by decide +kernel)
  have hpath : (backOffOf runtimeContainer).involved.fieldPath = some (containerPath runtimeContainer) := rfl
  obtain ⟨stored, hfetch, hplatform, hrestarts⟩ := Observed.call_says_platform hpath hwrote
  obtain ⟨hadds, -, -⟩ := hrestarts _ .epoch rfl (counts_restartedOnce runtimeContainer)
  exact ⟨hwrote, stored, hfetch, hplatform.mpr List.infix_rfl, hadds.mpr rfl⟩

/-- A name that a container can have: lower-case letters and digits, and dashes between them. -/
def IsLabel (name : String) : Prop :=
  name ≠ "" ∧ name.length ≤ 63 ∧ (name.toList.all fun c => c.isLower || c.isDigit || c = '-') ∧
    name.toList.head? ≠ some '-' ∧ name.toList.getLast? ≠ some '-'

instance (name : String) : Decidable (IsLabel name) := inferInstanceAs (Decidable (_ ∧ _ ∧ _ ∧ _ ∧ _))

/-- **Of a container next to the platform's**, the event says that the platform failed, and its restarts are the customer's. -/
theorem Observed.call_says_proxy :
    IsLabel "runtime-proxy" ∧ "runtime-proxy" ≠ runtimeContainer ∧
    (backOffOf "runtime-proxy").involved.fieldPath = some (containerPath "runtime-proxy") ∧
    Wrote emptySite (backOffSite "runtime-proxy") .event backOffUid.text ∧
    ((backOffSite "runtime-proxy").service.store.fetch? backOffUid).map (fun e : Event => e.info.platform) = some true ∧
    (restartedOnce "runtime-proxy").Counts .epoch ∧ (restartedOnce "runtime-proxy").AddsTo .epoch false ∧
    ¬ (restartedOnce "runtime-proxy").AddsTo .epoch true := by
  have hcounts := counts_restartedOnce "runtime-proxy"
  refine ⟨by decide, by decide, rfl, .of_mem rfl (by decide +kernel), by decide +kernel, hcounts, ?_, ?_⟩
  · rw [ContainerStatus.addsTo_iff hcounts]
    decide
  · rw [ContainerStatus.addsTo_iff hcounts]
    decide

end FleetAtlas
