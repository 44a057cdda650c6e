import FleetAtlas.Proofs.Dispatcher.Course

/-!
# Which objects a handler knows as they are

* `Course.Delivered c k o`: the last call for a key was for an object that is there, in the version of `o`;
* `Handout.FindsNoted`: the look-up of a key finds the version that the dispatcher has noted;
* `Reached.delivered_iff`: **in an idle course a cached object is delivered exactly if** its key, the last time that it
  was handed out, found the noted version, or found nothing while the handler already had that version.

A listing notes the versions that it shows before they are cached. A key that is handed out in between finds the object
as it was, and the end of the listing does not hand it out again.
-/

namespace FleetAtlas

variable {κ : Type} [ClusterObject κ]

/-- The look-up finds an object in the version that the dispatcher has noted. -/
def Handout.FindsNoted (h : Handout κ) : Prop :=
  ∃ o, h.target = .live o ∧ h.before.versions.get? h.key = some (versionOf o)

namespace Course

/-- The handler was last called for the object under a key, in the version of the given one. -/
def Delivered (c : Course κ) (k : ObjectKey) (o : κ) : Prop :=
  ∃ h o', c.lastCall? k = some h ∧ h.target = .live o' ∧ versionOf o' = versionOf o

/-- Every call succeeds, and the handing out of keys does not end. -/
def Succeeds (_ : Course κ) : Occurrence κ → Prop
  | .ended _ _ result => result = .ok ()
  | .closed => False
  | .seen _ | .begun | .expired _ => True

/-- **What has been noted of a cached object in an idle course** was noted when its key was last handed out. -/
theorem Sound.notedLast?_of_cached {c : Course κ} (h : c.Sound) (hi : c.IsIdle) {k : ObjectKey} {o : κ}
    (ho : c.dispatcher.cache.objects.get? k = some o) : c.notedLast? k = some (versionOf o) := by
  have hrelist : c.dispatcher.relist = none := by
    have := h.listing_eq
    rw [hi.listing] at this
    exact Option.isNone_iff_eq_none.mp (Option.isSome_eq_false_iff.mp this.symm)
  rcases h.waits_or_noted hi.closed k with hk | hk
  · rw [h.dirty_eq_nil hi] at hk
    exact nomatch hk
  · rw [← hk]
    exact h.mirrors.noted_of_cached hrelist ho

/-- **A cached object is delivered exactly if** its key, when it was last handed out, found the version noted by then, or
found nothing while the handler already had that version. -/
theorem Reached.delivered_iff {admits : Course κ → Occurrence κ → Prop} {c : Course κ} (h : Reached admits c)
    (hi : c.IsIdle) {k : ObjectKey} {o : κ} (ho : c.dispatcher.cache.objects.get? k = some o) :
    c.Delivered k o ↔ ∃ last, c.lastHandout? k = some last ∧
      (last.FindsNoted ∨ last.target = .gone ∧ ∃ h o', c.lastCall? k = some h ∧ h.target = .live o' ∧
        last.before.versions.get? k = some (versionOf o')) := by
  obtain ⟨last, hl, hn⟩ := Option.bind_eq_some_iff.mp (h.sound.notedLast?_of_cached hi ho)
  have hkey : last.key = k := by simpa using List.find?_some hl
  constructor
  · rintro ⟨call, o', hc, ht, hv⟩
    refine ⟨last, hl, ?_⟩
    by_cases hcall : last.isCall = true
    · -- the last hand-out is the call itself
      have e := (lastCall?_of_lastHandout? hl hcall).symm.trans hc
      rw [Option.some.inj e]
      rw [Option.some.inj e] at hn hkey
      exact .inl ⟨o', ht, by rw [hkey, hn, hv]⟩
    · refine .inr ⟨?_, call, o', hc, ht, by rw [hn, hv]⟩
      cases htl : last.target <;> simp [Handout.isCall, htl] at hcall ⊢
  · rintro ⟨last', hl', hcase⟩
    obtain rfl : last = last' := Option.some.inj (hl.symm.trans hl')
    rcases hcase with ⟨o', ht, hv⟩ | ⟨-, call, o', hc, ht, hv⟩
    · rw [hkey, hn, Option.some.injEq] at hv
      exact ⟨last, o', lastCall?_of_lastHandout? hl (Handout.isCall_of_isLive ⟨o', ht⟩), ht, hv.symm⟩
    · rw [hn, Option.some.injEq] at hv
      exact ⟨call, o', hc, ht, hv.symm⟩

/-! ### A listing that leaves an old version behind -/

/-- A namespace in a version. -/
def edition (version : String) : Namespace :=
  ⟨{ Metadata.empty with name := some "a", resourceVersion := some version }⟩

/-- A listing, and the call for the object that it shows. -/
def firstListing : List (Occurrence Namespace) :=
  [.seen .init, .seen (.initApply (edition "1")), .seen .initDone,
    .begun, .ended ⟨⟨none, "a"⟩, .live (edition "1")⟩ 0 (.ok ())]

/-- A second listing, which shows the object in a new version, and a call before it is complete. -/
def secondListing : List (Occurrence Namespace) :=
  [.seen .init, .seen (.initApply (edition "2")),
    .begun, .ended ⟨⟨none, "a"⟩, .live (edition "1")⟩ 0 (.ok ()), .seen .initDone]

theorem follows_firstListing : Follows Succeeds start firstListing := by
  refine ⟨trivial, trivial, rfl, trivial, rfl, trivial, rfl, trivial, ?_, rfl, trivial⟩
  show _ ∈ Dispatcher.flight _
  decide

theorem follows_secondListing : Follows Succeeds (firstListing.foldl next start) secondListing := by
  refine ⟨trivial, trivial, rfl, trivial, rfl, trivial, ?_, rfl, rfl, trivial, trivial⟩
  show _ ∈ Dispatcher.flight _
  decide

theorem delivered_firstListing : (firstListing.foldl next start).Delivered ⟨none, "a"⟩ (edition "1") := by
  have hi : (firstListing.foldl next start).IsIdle := by constructor <;> decide
  refine (Reached.delivered_iff (Reached.start.follow follows_firstListing) hi (by decide)).mpr ?_
  exact ⟨_, rfl, .inl ⟨edition "1", by decide, by decide⟩⟩

/-- **Calls that succeed need not deliver what is cached**: the second listing caches the new version, and nothing is left
to hand it out. -/
theorem exists_undelivered : ∃ (c : Course Namespace) (k : ObjectKey) (o : Namespace),
    Reached Succeeds c ∧ c.IsIdle ∧ c.dispatcher.cache.objects.get? k = some o ∧ ¬ c.Delivered k o := by
  let c := secondListing.foldl next (firstListing.foldl next start)
  have ht : (c.lastCall? ⟨none, "a"⟩).map Handout.target = some (.live (edition "1")) := by decide
  refine ⟨c, ⟨none, "a"⟩, edition "2", (Reached.start.follow follows_firstListing).follow follows_secondListing,
    by constructor <;> decide, by decide, ?_⟩
  rintro ⟨h, o, hl, ho, hv⟩
  rw [hl, Option.map_some, ho, Option.some.injEq, Target.live.injEq] at ht
  rw [ht] at hv
  exact absurd hv (by decide)

end Course

end FleetAtlas
