import FleetAtlas.Proofs.Dispatcher.Events

/-!
# What a dispatcher knows about its cache

* `Watching`: which events a watch sends while a listing runs, and which while none does;
* `Dispatcher.Mirrors`: how the noted versions, the tombstones and the running listing go with the cache;
* `Dispatcher.Mirrors.observe`, `Dispatcher.Mirrors.of_eq`: events keep this, and so does all that leaves the cache alone.

While a listing runs the noted versions are those of the buffer; they go with the cached objects only when it is complete.
-/

namespace FleetAtlas

/-- Which events a watch sends while a listing runs (`true`), and which while none does. -/
def Watching {κ : Type} (listing : Bool) : WatchEvent κ → Prop
  | .init => True
  | .initApply _ | .initDone => listing = true
  | .apply _ | .delete _ => listing = false

/-- Whether a listing runs after an event. -/
def listingAfter {κ : Type} (listing : Bool) : WatchEvent κ → Bool
  | .init => true
  | .initDone => false
  | .initApply _ | .apply _ | .delete _ => listing

namespace Dispatcher

variable {κ : Type} [ClusterObject κ]

/-- **How a dispatcher goes with its cache.** -/
structure Mirrors (d : Dispatcher κ) : Prop where
  /-- Every object is cached under its own key, and buffered under it. -/
  cached_key : ∀ {k o}, d.cache.objects.get? k = some o → ObjectKey.of o = k
  shown_key : ∀ {k o}, d.cache.buffer.get? k = some o → ObjectKey.of o = k
  /-- Nothing is buffered unless a listing runs. -/
  shown_of_relist : ∀ {k o}, d.cache.buffer.get? k = some o → d.relist.isSome
  /-- A listing remembers what is cached, and what it has shown is buffered. -/
  relist_before : ∀ {r}, d.relist = some r → r.before = d.cache.list
  relist_applied : ∀ {r}, d.relist = some r → ∀ k, k ∈ r.applied ↔ (d.cache.buffer.get? k).isSome
  /-- The version of a cached object is noted, unless a listing runs; that of a buffered one always is. -/
  noted_of_cached : d.relist = none → ∀ {k o}, d.cache.objects.get? k = some o →
    d.versions.get? k = some (versionOf o)
  noted_of_shown : ∀ {k o}, d.cache.buffer.get? k = some o → d.versions.get? k = some (versionOf o)
  /-- There is no tombstone where an object is. -/
  no_stone_of_cached : ∀ {k}, (d.cache.objects.get? k).isSome → d.tombstones.get? k = none
  no_stone_of_shown : ∀ {k}, (d.cache.buffer.get? k).isSome → d.tombstones.get? k = none

namespace Mirrors

variable {d : Dispatcher κ}

theorem empty : (Dispatcher.empty : Dispatcher κ).Mirrors := by
  constructor <;> simp [Dispatcher.empty, Cache.empty]

/-- What leaves the cache alone keeps this, also when it takes tombstones away. -/
theorem of_eq {d' : Dispatcher κ} (h : d.Mirrors) (hc : d'.cache = d.cache) (hv : d'.versions = d.versions)
    (hr : d'.relist = d.relist)
    (ht : ∀ k, d'.tombstones.get? k = d.tombstones.get? k ∨ d'.tombstones.get? k = none) : d'.Mirrors := by
  have hstone : ∀ k, d.tombstones.get? k = none → d'.tombstones.get? k = none := fun k hk =>
    (ht k).elim (·.trans hk) id
  obtain ⟨h1, h2, h3, h4, h5, h6, h7, h8, h9⟩ := h
  constructor
  all_goals simp only [hc, hv, hr]
  · exact h1
  · exact h2
  · exact h3
  · exact h4
  · exact h5
  · exact h6
  · exact h7
  · exact fun hk => hstone _ (h8 hk)
  · exact fun hk => hstone _ (h9 hk)

theorem buffer_none (h : d.Mirrors) (hr : d.relist = none) (k : ObjectKey) : d.cache.buffer.get? k = none :=
  Option.eq_none_iff_forall_not_mem.mpr fun o ho => by
    have := h.shown_of_relist ho
    simp [hr] at this

/-! ### Events -/

theorem observe_init (h : d.Mirrors) : (d.observe .init).Mirrors where
  cached_key := h.cached_key
  shown_key := nofun
  shown_of_relist := nofun
  relist_before := by rintro r ⟨⟩; rfl
  relist_applied := by rintro r ⟨⟩ k; simp [observe, notify, Cache.observe]
  noted_of_cached := nofun
  noted_of_shown := nofun
  no_stone_of_cached := h.no_stone_of_cached
  no_stone_of_shown := nofun

theorem observe_initApply {r : Relist κ} (h : d.Mirrors) (hr : d.relist = some r) (o : κ) :
    (d.observe (.initApply o)).Mirrors := by
  have hbuffer : ∀ k, (d.observe (.initApply o)).cache.buffer.get? k =
      if k = .of o then some o else d.cache.buffer.get? k := fun k => by
    rw [observe_cache]; exact Dict.get?_insert _ _ _ _
  have hversions : ∀ k, (d.observe (.initApply o)).versions.get? k =
      if k = .of o then some (versionOf o) else d.versions.get? k := fun k => get?_versions_applied _ o k
  have hstones : ∀ k, (d.observe (.initApply o)).tombstones.get? k =
      if k = .of o then none else d.tombstones.get? k := fun k => get?_tombstones_applied _ o k
  have hrelist : (d.observe (.initApply o)).relist = some { r with applied := .of o :: r.applied } := by
    show ({ d with cache := _ }.applied o).relist = _
    rw [applied_relist]; simp [hr]
  constructor
  case cached_key => rw [observe_cache]; exact h.cached_key
  case shown_key =>
    intro k o' ho'
    rw [hbuffer] at ho'
    split at ho'
    · next hk => rw [Option.some.inj ho'] at hk; exact hk.symm
    · exact h.shown_key ho'
  case shown_of_relist => rw [hrelist]; exact fun _ => rfl
  case relist_before =>
    intro r' hr'
    rw [hrelist, Option.some.injEq] at hr'
    have hb : r.before = d.cache.list := h.relist_before hr
    rw [← hr', observe_cache]
    exact hb
  case relist_applied =>
    intro r' hr' k
    rw [hrelist, Option.some.injEq] at hr'
    rw [← hr', hbuffer, List.mem_cons, h.relist_applied hr]
    by_cases hk : k = .of o <;> simp [hk]
  case noted_of_cached => simp [hrelist]
  case noted_of_shown =>
    intro k o' ho'
    rw [hbuffer] at ho'
    rw [hversions]
    split at ho'
    · next hk => rw [if_pos hk, Option.some.inj ho']
    · next hk => rw [if_neg hk]; exact h.noted_of_shown ho'
  case no_stone_of_cached =>
    intro k hk
    rw [observe_cache] at hk
    rw [hstones]
    split
    · rfl
    · exact h.no_stone_of_cached hk
  case no_stone_of_shown =>
    intro k hk
    rw [hbuffer] at hk
    rw [hstones]
    split at hk
    · next e => rw [if_pos e]
    · next e => rw [if_neg e]; exact h.no_stone_of_shown hk

theorem observe_apply (h : d.Mirrors) (hr : d.relist = none) (o : κ) : (d.observe (.apply o)).Mirrors := by
  have hobjects : ∀ k, (d.observe (.apply o)).cache.objects.get? k =
      if k = .of o then some o else d.cache.objects.get? k := fun k => by
    rw [observe_cache]; exact Dict.get?_insert _ _ _ _
  have hbuffer : ∀ k, (d.cache.observe (.apply o)).buffer.get? k = none := h.buffer_none hr
  have hrelist : (d.observe (.apply o)).relist = none := by
    show ({ d with cache := _ }.applied o).relist = _
    rw [applied_relist]; simp [hr]
  constructor
  case cached_key =>
    intro k o' ho'
    rw [hobjects] at ho'
    split at ho'
    · next hk => rw [Option.some.inj ho'] at hk; exact hk.symm
    · exact h.cached_key ho'
  case noted_of_cached =>
    intro _ k o' ho'
    rw [hobjects] at ho'
    have e := get?_versions_applied { d with cache := d.cache.observe (.apply o) } o k
    split at ho'
    · next hk => exact e.trans (by rw [if_pos hk, Option.some.inj ho'])
    · next hk => exact e.trans (by rw [if_neg hk]; exact h.noted_of_cached hr ho')
  case no_stone_of_cached =>
    intro k hk
    rw [hobjects] at hk
    have e := get?_tombstones_applied { d with cache := d.cache.observe (.apply o) } o k
    split at hk
    · next hk' => exact e.trans (if_pos hk')
    · next hk' => exact e.trans (by rw [if_neg hk']; exact h.no_stone_of_cached hk)
  all_goals simp [hrelist, hbuffer]

theorem observe_delete (h : d.Mirrors) (hr : d.relist = none) (o : κ) : (d.observe (.delete o)).Mirrors := by
  have hobjects : ∀ k, (d.observe (.delete o)).cache.objects.get? k =
      if k = .of o then none else d.cache.objects.get? k := fun k => by
    rw [observe_cache]
    show (d.cache.objects.erase _).get? k = _
    by_cases hk : k = .of o
    · rw [if_pos hk, hk, Dict.get?_erase_self]
    · rw [if_neg hk, Dict.get?_erase_of_ne _ hk]
  have hbuffer : ∀ k, (d.cache.observe (.delete o)).buffer.get? k = none := h.buffer_none hr
  have hrelist : (d.observe (.delete o)).relist = none := hr
  constructor
  case cached_key =>
    intro k o' ho'
    rw [hobjects] at ho'
    split at ho'
    · cases ho'
    · exact h.cached_key ho'
  case noted_of_cached =>
    intro _ k o' ho'
    rw [hobjects] at ho'
    have e := get?_versions_bereave { d with cache := d.cache.observe (.delete o) } (.of o) k o
    split at ho'
    · cases ho'
    · next hk => exact e.trans (by rw [if_neg hk]; exact h.noted_of_cached hr ho')
  case no_stone_of_cached =>
    intro k hk
    rw [hobjects] at hk
    have e := get?_tombstones_bereave { d with cache := d.cache.observe (.delete o) } (.of o) k o
    split at hk
    · cases hk
    · next hk' => exact e.trans (by rw [if_neg hk']; exact h.no_stone_of_cached hk)
  all_goals simp [hrelist, hbuffer]

theorem observe_initDone {r : Relist κ} (h : d.Mirrors) (hr : d.relist = some r) :
    (d.observe .initDone).Mirrors := by
  have e : d.observe .initDone =
      { d with cache := d.cache.observe .initDone, relist := none }.bereaveAll (vanished r) :=
    notify_initDone (d := { d with cache := d.cache.observe .initDone }) hr
  have hcache : (d.observe .initDone).cache = ⟨d.cache.buffer, ∅, true⟩ := observe_cache d _
  have hrelist : (d.observe .initDone).relist = none := by rw [e, bereaveAll_relist]
  -- what the listing has shown did not vanish
  have hstays : ∀ {k}, (d.cache.buffer.get? k).isSome → k ∉ (vanished r).map ObjectKey.of := fun hk hv =>
    (mem_vanished_iff.mp hv).2 ((h.relist_applied hr _).mpr hk)
  constructor
  case cached_key => rw [hcache]; exact h.shown_key
  case noted_of_cached =>
    rw [hcache]
    intro _ k o ho
    have ho : d.cache.buffer.get? k = some o := ho
    rw [e, get?_versions_bereaveAll, if_neg (hstays (by rw [ho]; rfl))]
    exact h.noted_of_shown ho
  case no_stone_of_cached =>
    rw [hcache]
    intro k hk
    have hk : (d.cache.buffer.get? k).isSome := hk
    rw [e, get?_tombstones_bereaveAll_of_notMem (hstays hk)]
    exact h.no_stone_of_shown hk
  all_goals simp [hrelist, Cache.observe]

/-- **Events keep a dispatcher in step with its cache.** -/
theorem observe (h : d.Mirrors) {e : WatchEvent κ} (he : Watching d.relist.isSome e) : (d.observe e).Mirrors := by
  cases e with
  | init => exact h.observe_init
  | initApply o =>
    obtain ⟨r, hr⟩ := Option.isSome_iff_exists.mp he
    exact h.observe_initApply hr o
  | initDone =>
    obtain ⟨r, hr⟩ := Option.isSome_iff_exists.mp he
    exact h.observe_initDone hr
  | apply o => exact h.observe_apply (Option.isSome_eq_false_iff.mp he |> Option.isNone_iff_eq_none.mp) o
  | delete o => exact h.observe_delete (Option.isSome_eq_false_iff.mp he |> Option.isNone_iff_eq_none.mp) o

end Mirrors

/-- A listing runs from its begin to its end. -/
theorem relist_observe {d : Dispatcher κ} {e : WatchEvent κ} (he : Watching d.relist.isSome e) :
    (d.observe e).relist.isSome = listingAfter d.relist.isSome e := by
  cases e with
  | init => rfl
  | initApply o => show ({ d with cache := _ }.applied o).relist.isSome = _; simp [listingAfter]
  | apply o => show ({ d with cache := _ }.applied o).relist.isSome = _; simp [listingAfter]
  | delete o => rfl
  | initDone =>
    obtain ⟨r, hr⟩ := Option.isSome_iff_exists.mp he
    have e : d.observe .initDone = _ := notify_initDone (d := { d with cache := d.cache.observe .initDone }) hr
    rw [e, bereaveAll_relist]
    rfl

end Dispatcher

end FleetAtlas
