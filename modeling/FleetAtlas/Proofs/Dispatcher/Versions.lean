import FleetAtlas.Proofs.Dispatcher.Convergence
import FleetAtlas.Proofs.Dispatcher.Deletion

/-!
# Which versions a dispatcher has noted

* `Course.strays`: the versions that listings which began anew have left behind, of keys that were not cached;
* `Course.Accounts`: what is noted of the keys that are neither cached nor shown is what was left behind of them;
* `versions_eq_cached_or_stray`: **while no listing runs, the noted versions are those of the cached objects and the
  strays**; an object that comes under a key with a stray of its own version is not queued.

A listing notes the versions that it shows at once.  If it begins anew, it compares only with what was cached, so what
the broken one has shown stays noted until an object of that key is there again or goes.
-/

namespace FleetAtlas.Course

variable {κ : Type} [ClusterObject κ]

/-- What is left behind after an occurrence, from what was before it: a listing that begins leaves what another one has
shown by then; an object that is there, or goes, takes away what is left of its key. -/
def remains (c : Course κ) (left : ObjectKey → Option (Option String)) : Occurrence κ → ObjectKey → Option (Option String)
  | .seen .init, k =>
    if (c.dispatcher.cache.objects.get? k).isSome then none
    else ((c.dispatcher.cache.buffer.get? k).map versionOf).or (left k)
  | .seen (.initApply o), k | .seen (.apply o), k | .seen (.delete o), k => if k = .of o then none else left k
  | .seen .initDone, k | .begun, k | .ended .., k | .expired _, k | .closed, k => left k

def straysFrom : Course κ → (ObjectKey → Option (Option String)) → List (Occurrence κ) → ObjectKey → Option (Option String)
  | _, left, [] => left
  | c, left, o :: os => straysFrom (c.next o) (c.remains left o) os

/-- The versions left behind by listings that began anew. -/
def strays (os : List (Occurrence κ)) : ObjectKey → Option (Option String) := straysFrom start (fun _ => none) os

/-- **What is left behind accounts for the noted versions of keys without object.** -/
structure Accounts (c : Course κ) (left : ObjectKey → Option (Option String)) : Prop where
  noted_of_absent : ∀ {k}, c.dispatcher.cache.objects.get? k = none → c.dispatcher.cache.buffer.get? k = none →
    c.dispatcher.versions.get? k = left k
  /-- Nothing is left behind of a key that is cached or shown. -/
  none_of_cached : ∀ {k}, (c.dispatcher.cache.objects.get? k).isSome → left k = none
  none_of_shown : ∀ {k}, (c.dispatcher.cache.buffer.get? k).isSome → left k = none

namespace Accounts

variable {c : Course κ} {left : ObjectKey → Option (Option String)}

omit [ClusterObject κ] in
theorem start : (start : Course κ).Accounts fun _ => none := ⟨fun _ _ => rfl, fun _ => rfl, fun _ => rfl⟩

omit [ClusterObject κ] in
/-- What leaves the cache and the versions alone keeps the account. -/
theorem of_eq {c' : Course κ} (h : c.Accounts left) (hc : c'.dispatcher.cache = c.dispatcher.cache)
    (hv : c'.dispatcher.versions = c.dispatcher.versions) : c'.Accounts left := by
  constructor
  all_goals simp only [hc, hv]
  · exact h.noted_of_absent
  · exact h.none_of_cached
  · exact h.none_of_shown

/-! ### Events -/

theorem seen_init (h : c.Accounts left) (hm : c.dispatcher.Mirrors) :
    (c.next (.seen .init)).Accounts (c.remains left (.seen .init)) where
  noted_of_absent := by
    intro k ho _
    replace ho : c.dispatcher.cache.objects.get? k = none := ho
    show c.dispatcher.versions.get? k = _
    simp only [remains, ho, Option.isSome_none, Bool.false_eq_true, if_false]
    cases hb : c.dispatcher.cache.buffer.get? k with
    | none => exact h.noted_of_absent ho hb
    | some o => exact hm.noted_of_shown hb
  none_of_cached := fun hk => if_pos hk
  none_of_shown := nofun

/-- An object that is there, in the cache or in a listing, settles the account of its key. -/
theorem of_applied (h : c.Accounts left) {d : Dispatcher κ} {o : κ}
    (hversions : d.versions = c.dispatcher.versions) (hrest : ∀ {k}, k ≠ .of o →
      d.cache.objects.get? k = c.dispatcher.cache.objects.get? k ∧
      d.cache.buffer.get? k = c.dispatcher.cache.buffer.get? k)
    (hthere : d.cache.objects.get? (.of o) = none → d.cache.buffer.get? (.of o) ≠ none) (listing : Bool) :
    (⟨d.applied o, listing, c.handouts⟩ : Course κ).Accounts fun k => if k = .of o then none else left k := by
  constructor
  all_goals
    intro k
    dsimp only
    rw [Dispatcher.applied_cache]
    by_cases hk : k = .of o
  · subst hk
    exact fun ho hb => absurd hb (hthere ho)
  · rw [(hrest hk).1, (hrest hk).2, Dispatcher.get?_versions_applied, if_neg hk, if_neg hk, hversions]
    exact h.noted_of_absent
  · exact fun _ => if_pos hk
  · rw [(hrest hk).1, if_neg hk]
    exact h.none_of_cached
  · exact fun _ => if_pos hk
  · rw [(hrest hk).2, if_neg hk]
    exact h.none_of_shown

theorem seen_initApply (h : c.Accounts left) (o : κ) :
    (c.next (.seen (.initApply o))).Accounts (c.remains left (.seen (.initApply o))) := by
  refine h.of_applied (d := { c.dispatcher with cache := c.dispatcher.cache.observe (.initApply o) }) rfl
    (fun hk => ⟨rfl, Dict.get?_insert_of_ne _ hk _⟩) (fun _ => ?_) _
  show (c.dispatcher.cache.buffer.insert (.of o) o).get? (.of o) ≠ none
  simp

theorem seen_apply (h : c.Accounts left) (o : κ) :
    (c.next (.seen (.apply o))).Accounts (c.remains left (.seen (.apply o))) := by
  refine h.of_applied (d := { c.dispatcher with cache := c.dispatcher.cache.observe (.apply o) }) rfl
    (fun hk => ⟨Dict.get?_insert_of_ne _ hk _, rfl⟩) (fun ho => ?_) _
  replace ho : (c.dispatcher.cache.objects.insert (.of o) o).get? (.of o) = none := ho
  simp at ho

theorem seen_delete (h : c.Accounts left) (hb : ∀ k, c.dispatcher.cache.buffer.get? k = none) (o : κ) :
    (c.next (.seen (.delete o))).Accounts (c.remains left (.seen (.delete o))) := by
  have hobjects : ∀ {k}, k ≠ .of o → (c.dispatcher.cache.objects.erase (.of o)).get? k =
      c.dispatcher.cache.objects.get? k := fun hk => Dict.get?_erase_of_ne _ hk
  have hversions : ∀ k, (c.dispatcher.observe (.delete o)).versions.get? k =
      if k = .of o then none else c.dispatcher.versions.get? k := fun k => Dispatcher.get?_versions_bereave _ _ k o
  constructor
  · intro k ho _
    replace ho : (c.dispatcher.cache.objects.erase (.of o)).get? k = none := ho
    refine (hversions k).trans ?_
    show _ = if k = .of o then none else left k
    by_cases hk : k = .of o
    · rw [if_pos hk, if_pos hk]
    · rw [if_neg hk, if_neg hk]
      exact h.noted_of_absent (hobjects hk ▸ ho) (hb k)
  · intro k ho
    replace ho : ((c.dispatcher.cache.objects.erase (.of o)).get? k).isSome := ho
    show (if k = .of o then none else left k) = none
    split
    · rfl
    · next hk => exact h.none_of_cached (hobjects hk ▸ ho)
  · intro k hs
    replace hs : (c.dispatcher.cache.buffer.get? k).isSome := hs
    simp [hb k] at hs

theorem seen_initDone (h : c.Accounts left) (hm : c.dispatcher.Mirrors) {r : Relist κ}
    (hr : c.dispatcher.relist = some r) :
    (c.next (.seen .initDone)).Accounts (c.remains left (.seen .initDone)) := by
  have hversions : ∀ k, (c.dispatcher.observe .initDone).versions.get? k =
      if k ∈ (Dispatcher.vanished r).map ObjectKey.of then none else c.dispatcher.versions.get? k := fun k => by
    rw [show c.dispatcher.observe .initDone = _ from
      Dispatcher.notify_initDone (d := { c.dispatcher with cache := c.dispatcher.cache.observe .initDone }) hr]
    exact Dispatcher.get?_versions_bereaveAll _ _ k
  have hobjects : (c.next (.seen .initDone)).dispatcher.cache = ⟨c.dispatcher.cache.buffer, ∅, true⟩ :=
    Dispatcher.observe_cache _ _
  constructor
  · intro k ho _
    rw [hobjects] at ho
    refine (hversions k).trans ?_
    show _ = left k
    cases hc : c.dispatcher.cache.objects.get? k with
    | some o =>
      -- the listing has left out an object that was cached
      have hv : k ∈ (Dispatcher.vanished r).map ObjectKey.of := by
        refine Dispatcher.mem_vanished_iff.mpr ⟨⟨o, ?_, hm.cached_key hc⟩, ?_⟩
        · rw [hm.relist_before hr]
          exact Dict.mem_values_iff.mpr ⟨k, hc⟩
        · rw [hm.relist_applied hr, ho]
          simp
      rw [if_pos hv, h.none_of_cached (by rw [hc]; rfl)]
    | none =>
      have hv : k ∉ (Dispatcher.vanished r).map ObjectKey.of := fun hv => by
        obtain ⟨o, ho', rfl⟩ := (Dispatcher.mem_vanished_iff.mp hv).1
        rw [hm.relist_before hr] at ho'
        obtain ⟨k', hk'⟩ := Dict.mem_values_iff.mp ho'
        rw [hm.cached_key hk', hk'] at hc
        exact nomatch hc
      rw [if_neg hv]
      exact h.noted_of_absent hc ho
  · rw [hobjects]
    exact h.none_of_shown
  · rw [hobjects]
    exact nofun

/-! ### Runs -/

theorem next (h : c.Accounts left) (hc : c.Sound) {o : Occurrence κ} (hp : c.Permits o) :
    (c.next o).Accounts (c.remains left o) := by
  have hrelist : ∀ {b}, c.listing = b → c.dispatcher.relist.isSome = b := fun hl => hc.listing_eq ▸ hl
  cases o with
  | seen e =>
    cases e with
    | init => exact h.seen_init hc.mirrors
    | initApply o => exact h.seen_initApply o
    | apply o => exact h.seen_apply o
    | delete o =>
      refine h.seen_delete (hc.mirrors.buffer_none ?_) o
      simpa using hrelist hp
    | initDone =>
      obtain ⟨r, hr⟩ := Option.isSome_iff_exists.mp (hrelist hp)
      exact h.seen_initDone hc.mirrors hr
  | begun =>
    rcases c.next_begun with e | ⟨k, rest, -, -, e⟩
    · rw [e]; exact h
    · rw [e]; exact h.of_eq rfl rfl
  | ended call now result => exact h.of_eq (Dispatcher.finish_cache ..) (Dispatcher.finish_versions ..)
  | expired t => exact h.of_eq rfl rfl
  | closed => exact h.of_eq rfl rfl

theorem straysFrom {admits : Course κ → Occurrence κ → Prop} {os : List (Occurrence κ)} (h : c.Accounts left)
    (hc : c.Sound) (ho : Follows admits c os) : (os.foldl Course.next c).Accounts (c.straysFrom left os) := by
  induction os generalizing c left with
  | nil => exact h
  | cons o os ih => exact ih (h.next hc ho.1) (hc.next ho.1) ho.2.2

end Accounts

/-- **Listings that do not begin anew leave nothing behind.** -/
theorem straysFrom_eq_none {c : Course κ} (hc : c.Sound) {os : List (Occurrence κ)} (h : Follows Completes c os) :
    c.straysFrom (fun _ => none) os = fun _ => none := by
  induction os generalizing c with
  | nil => rfl
  | cons o os ih =>
    have e : c.remains (fun _ => none) o = fun _ => none := by
      funext k
      unfold remains
      split
      · -- no listing runs, so nothing has been shown
        have hrelist : c.dispatcher.relist = none := by simpa using hc.listing_eq.symm.trans h.2.1
        simp [hc.mirrors.buffer_none hrelist k]
      all_goals simp
    rw [straysFrom, e]
    exact ih (hc.next h.1) h.2.2

/-- **While no listing runs, what is noted is the versions of the cached objects, and the strays.**  Of a cached key there
is no stray; an object that enters the cache is queued unless its key has a stray of its version; and there is no stray at
all if no listing began anew. -/
theorem versions_eq_cached_or_stray {admits : Course κ → Occurrence κ → Prop} {os : List (Occurrence κ)}
    (h : Follows admits start os) (hl : (os.foldl next start).listing = false) :
    (∀ k, (os.foldl next start).dispatcher.versions.get? k =
      (((os.foldl next start).dispatcher.cache.objects.get? k).map versionOf).or (strays os k)) ∧
    (∀ k, ((os.foldl next start).dispatcher.cache.objects.get? k).isSome → strays os k = none) ∧
    (∀ o, (os.foldl next start).dispatcher.cache.objects.get? (.of o) = none →
      ((os.foldl next start).next (.seen (.apply o))).dispatcher.queue =
        if strays os (.of o) = some (versionOf o) then (os.foldl next start).dispatcher.queue
        else (os.foldl next start).dispatcher.queue.add (.of o)) ∧
    (Follows Completes start os → ∀ k, strays os k = none) := by
  have hc : (os.foldl next start).Sound := (Reached.start.follow h).sound
  have ha : (os.foldl next start).Accounts (strays os) := Accounts.start.straysFrom .start h
  have hrelist : (os.foldl next start).dispatcher.relist = none := by simpa [hl] using hc.listing_eq.symm
  have hnoted : ∀ k, (os.foldl next start).dispatcher.versions.get? k =
      (((os.foldl next start).dispatcher.cache.objects.get? k).map versionOf).or (strays os k) := fun k => by
    cases ho : (os.foldl next start).dispatcher.cache.objects.get? k with
    | none => exact ha.noted_of_absent ho (hc.mirrors.buffer_none hrelist k)
    | some o => exact hc.mirrors.noted_of_cached hrelist ho
  refine ⟨hnoted, fun k => ha.none_of_cached, fun o ho => ?_, fun hcomplete k => ?_⟩
  · refine (Dispatcher.applied_queue _ o).trans ?_
    show (if (os.foldl next start).dispatcher.versions.get? (.of o) = _ then _ else _) = _
    rw [hnoted, ho]
    rfl
  · exact congrFun (straysFrom_eq_none .start hcomplete) k

/-! ### A listing that begins anew -/

/-- A listing shows an object, begins anew, and is complete without it. -/
def brokenListing : List (Occurrence Namespace) :=
  [.seen .init, .seen (.initApply (edition "1")), .seen .init, .seen .initDone]

/-- The key of the object that was shown is handed out, and nothing is found. -/
def vainCall : List (Occurrence Namespace) := [.begun, .ended ⟨⟨none, "a"⟩, .gone⟩ 0 (.ok ())]

theorem follows_brokenListing : Follows (fun _ _ => True) start brokenListing :=
  ⟨trivial, trivial, rfl, trivial, trivial, trivial, rfl, trivial, trivial⟩

theorem follows_vainCall : Follows (fun _ _ => True) (brokenListing.foldl next start) vainCall := by
  refine ⟨rfl, trivial, ?_, trivial, trivial⟩
  show _ ∈ Dispatcher.flight _
  decide

theorem versions_brokenListing :
    ((brokenListing.foldl next start).dispatcher.versions.get? ⟨none, "a"⟩ = some (some "1")) ∧
    ((brokenListing.foldl next start).next (.seen (.apply (edition "1")))).dispatcher.queue =
      (brokenListing.foldl next start).dispatcher.queue := by
  have hs : strays brokenListing ⟨none, "a"⟩ = some (some "1") := by decide
  obtain ⟨hnoted, -, hqueue, -⟩ := versions_eq_cached_or_stray follows_brokenListing (by decide)
  refine ⟨(hnoted _).trans (by rw [hs]; decide), (hqueue (edition "1") (by decide)).trans (if_pos ?_)⟩
  exact hs

/-- **A version can be noted without an object**, and then an object that enters the cache is not queued. -/
theorem exists_stray : ∃ (c : Course Namespace) (o : Namespace), Reached (fun _ _ => True) c ∧ c.listing = false ∧
    c.dispatcher.cache.objects.get? (.of o) = none ∧ (c.dispatcher.versions.get? (.of o)).isSome ∧
    (c.next (.seen (.apply o))).dispatcher.cache.objects.get? (.of o) = some o ∧
    ObjectKey.of o ∉ (c.next (.seen (.apply o))).dispatcher.queue.dirty :=
  ⟨vainCall.foldl next (brokenListing.foldl next start), edition "1",
    (Reached.start.follow follows_brokenListing).follow follows_vainCall,
    by decide, by decide, by decide, by decide, by decide⟩

end FleetAtlas.Course
