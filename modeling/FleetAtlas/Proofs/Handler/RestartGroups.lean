import FleetAtlas.Handler.Restarts
import Mathlib.Algebra.BigOperators.Group.List.Basic
import Mathlib.Algebra.Ring.Int.Defs
import Mathlib.Order.Bounds.Defs

/-!
# Restarts of the two groups of containers

The platform's container is one group, all others are the other one. Only containers that were restarted and of which it is known
when they ended count.

* `ContainerStatus.Counts`, `ContainerStatus.counted?_eq_some_iff`: what a status adds to its group;
* `Restarts.Totals`: restarts are the sum of what was added, up to the largest count, from the first time to the last one;
  `Restarts.Totals.add`: adding keeps this so; `Restarts.Totals.eq_of_perm`: it leaves no choice, whatever the order;
* `countsOf`, `totals_restartsOf`: so are the restarts of a group;
* `restarts_order_free`: **the event of a group** is a sum, a minimum and a maximum over the statuses that count, in any order.
-/

namespace FleetAtlas

/-! ### Points in time -/

namespace Timestamp

variable {a b : Timestamp}

theorem le_antisymm (hab : a ≤ b) (hba : b ≤ a) : a = b := by
  have hfields : a.fields = b.fields := List.le_antisymm hab hba
  cases a
  cases b
  simpa [fields, Int.natCast_inj] using hfields

theorem earlier_eq_or (a b : Timestamp) : a.earlier b = a ∨ a.earlier b = b := by
  unfold earlier
  split
  · exact .inr rfl
  · exact .inl rfl

theorem later_eq_or (a b : Timestamp) : a.later b = a ∨ a.later b = b := by
  unfold later
  split
  · exact .inr rfl
  · exact .inl rfl

theorem eq_of_isLeast {times : Set Timestamp} (ha : IsLeast times a) (hb : IsLeast times b) : a = b :=
  le_antisymm (ha.2 hb.1) (hb.2 ha.1)

theorem eq_of_isGreatest {times : Set Timestamp} (ha : IsGreatest times a) (hb : IsGreatest times b) : a = b :=
  le_antisymm (hb.2 ha.1) (ha.2 hb.1)

end Timestamp

/-! ### Statuses that count -/

namespace ContainerStatus

/-- When a container ended: at its last end, or if it has none at its end now. -/
def EndedAt (s : ContainerStatus) (time : Timestamp) : Prop :=
  ∃ t : Termination, t.finished = some time ∧ (s.last = some t ∨ s.last = none ∧ s.current = some t)

/-- A container was restarted, and ended at a time. -/
structure Counts (s : ContainerStatus) (time : Timestamp) : Prop where
  restarted : 0 < s.restarts
  ended : s.EndedAt time

/-- Whether the container is the platform's. -/
def isPlatform (s : ContainerStatus) : Bool := s.name = runtimeContainer

variable {s : ContainerStatus} {n : Int32} {time : Timestamp}

theorem endedAt_iff : s.EndedAt time ↔ (s.last <|> s.current).bind Termination.finished = some time := by
  unfold EndedAt
  cases s.last with
  | some t => simp
  | none => simp [Option.bind_eq_some_iff, and_comm]

/-- **What a status adds** to its group. -/
theorem counted?_eq_some_iff : s.counted? = some (n, time) ↔ n = s.restarts ∧ s.Counts time := by
  rw [counted?]
  constructor
  · intro h
    split at h
    · exact nomatch h
    · next hpos =>
      obtain ⟨t, ht, he⟩ := Option.map_eq_some_iff.mp h
      obtain ⟨rfl, rfl⟩ := Prod.mk.inj he
      exact ⟨rfl, Int32.not_le.mp hpos, endedAt_iff.mpr ht⟩
  · rintro ⟨rfl, hcounts⟩
    rw [if_neg (Int32.not_le.mpr hcounts.restarted), endedAt_iff.mp hcounts.ended, Option.map_some]

/-- A status counts if some time is known for it. -/
def IsCounted (s : ContainerStatus) : Prop := ∃ time, s.Counts time

theorem isCounted_iff : s.IsCounted ↔ s.counted?.isSome := by
  rw [Option.isSome_iff_exists]
  constructor
  · rintro ⟨time, h⟩
    exact ⟨(s.restarts, time), counted?_eq_some_iff.mpr ⟨rfl, h⟩⟩
  · rintro ⟨⟨n, time⟩, h⟩
    exact ⟨time, (counted?_eq_some_iff.mp h).2⟩

instance (s : ContainerStatus) : Decidable s.IsCounted := decidable_of_iff _ isCounted_iff.symm

end ContainerStatus

/-! ### Totals -/

/-- The times that a list has, each with a count. -/
def timesOf (l : List (Int32 × Timestamp)) : Set Timestamp := {t | ∃ n, (n, t) ∈ l}

/-- Restarts are what counts and times come to: the sum of the counts, up to the largest count, and the first and the last
time. -/
structure Restarts.Totals (r : Restarts) (l : List (Int32 × Timestamp)) : Prop where
  count : r.count.toInt = min (l.map fun e => e.1.toInt).sum 2147483647
  none : r.span = .none → l = []
  first : ∀ span, r.span = some span → IsLeast (timesOf l) span.1
  last : ∀ span, r.span = some span → IsGreatest (timesOf l) span.2

theorem toInt_saturatingAdd {a b : Int32} (hb : 0 < b) :
    (saturatingAdd a b).toInt = min (a.toInt + b.toInt) 2147483647 := by
  have ha := a.le_toInt
  have hb : 0 < b.toInt := Int32.lt_iff_toInt_lt.mp hb
  -- what is added is positive, so the sum is not too small
  have hlow : max (-2147483648) (min (a.toInt + b.toInt) 2147483647) = min (a.toInt + b.toInt) 2147483647 := by omega
  rw [saturatingAdd, hlow, Int32.toInt_ofInt_of_le (by omega) (by omega)]

section Times

variable {l : List (Int32 × Timestamp)} {n : Int32} {t time : Timestamp}

theorem mem_timesOf : t ∈ timesOf l ↔ ∃ n, (n, t) ∈ l := Iff.rfl

theorem mem_timesOf_append : t ∈ timesOf (l ++ [(n, time)]) ↔ t ∈ timesOf l ∨ t = time := by
  simp [mem_timesOf, exists_or]

theorem isLeast_earlier {first : Timestamp} (h : IsLeast (timesOf l) first) :
    IsLeast (timesOf (l ++ [(n, time)])) (first.earlier time) := by
  constructor
  · rw [mem_timesOf_append]
    rcases Timestamp.earlier_eq_or first time with he | he
    · rw [he]
      exact .inl h.1
    · exact .inr he
  · intro t ht
    rcases mem_timesOf_append.mp ht with ht | rfl
    · exact Timestamp.le_trans (Timestamp.earlier_le_left first time) (h.2 ht)
    · exact Timestamp.earlier_le_right first t

theorem isGreatest_later {last : Timestamp} (h : IsGreatest (timesOf l) last) :
    IsGreatest (timesOf (l ++ [(n, time)])) (last.later time) := by
  constructor
  · rw [mem_timesOf_append]
    rcases Timestamp.later_eq_or last time with he | he
    · rw [he]
      exact .inl h.1
    · exact .inr he
  · intro t ht
    rcases mem_timesOf_append.mp ht with ht | rfl
    · exact Timestamp.le_trans (h.2 ht) (Timestamp.le_later_left last time)
    · exact Timestamp.le_later_right last t

end Times

namespace Restarts

variable {r r' : Restarts} {l l' : List (Int32 × Timestamp)}

theorem totals_none : none.Totals [] := by
  have hcount : none.count.toInt = min 0 2147483647 := by decide
  exact ⟨hcount, fun _ => rfl, (fun _ h => nomatch h), (fun _ h => nomatch h)⟩

/-- **Adding a container** keeps the totals. -/
theorem Totals.add (h : r.Totals l) {n : Int32} (hn : 0 < n) (time : Timestamp) :
    (r.add n time).Totals (l ++ [(n, time)]) := by
  have hcount : (r.add n time).count.toInt = min ((l ++ [(n, time)]).map fun e => e.1.toInt).sum 2147483647 := by
    have hpos : 0 < n.toInt := Int32.lt_iff_toInt_lt.mp hn
    rw [Restarts.add, toInt_saturatingAdd hn, h.count, List.map_append, List.sum_append]
    simp only [List.map_cons, List.map_nil, List.sum_cons, List.sum_nil]
    omega
  have hspan : ∃ span, (r.add n time).span = some span ∧ IsLeast (timesOf (l ++ [(n, time)])) span.1 ∧
      IsGreatest (timesOf (l ++ [(n, time)])) span.2 := by
    cases hr : r.span with
    | none =>
      obtain rfl := h.none hr
      have hone {t : Timestamp} (ht : t ∈ timesOf ([] ++ [(n, time)])) : t = time := by simpa [mem_timesOf] using ht
      have hmem : time ∈ timesOf ([] ++ [(n, time)]) := mem_timesOf_append.mpr (.inr rfl)
      refine ⟨(time, time), by rw [Restarts.add, hr], ⟨hmem, fun t ht => ?_⟩, ⟨hmem, fun t ht => ?_⟩⟩
      · rw [hone ht]
        exact Timestamp.le_refl time
      · rw [hone ht]
        exact Timestamp.le_refl time
    | some span =>
      exact ⟨(span.1.earlier time, span.2.later time), by rw [Restarts.add, hr], isLeast_earlier (h.first span hr),
        isGreatest_later (h.last span hr)⟩
  obtain ⟨span, hadd, hfirst, hlast⟩ := hspan
  refine ⟨hcount, fun hnone => ?_, fun span' hspan' => ?_, fun span' hspan' => ?_⟩
  · rw [hadd] at hnone
    exact nomatch hnone
  · obtain rfl := Option.some.inj (hadd.symm.trans hspan')
    exact hfirst
  · obtain rfl := Option.some.inj (hadd.symm.trans hspan')
    exact hlast

theorem Totals.foldl_add {done : List (Int32 × Timestamp)} (h : r.Totals done) (hl : ∀ e ∈ l, 0 < e.1) :
    (l.foldl (fun r e => r.add e.1 e.2) r).Totals (done ++ l) := by
  induction l generalizing r done with
  | nil => simpa using h
  | cons e l ih =>
    have hadded : (r.add e.1 e.2).Totals (done ++ [e]) := h.add (hl e List.mem_cons_self) e.2
    simpa using ih hadded fun e' he' => hl e' (List.mem_cons_of_mem e he')

theorem Totals.span_eq_none_iff (h : r.Totals l) : r.span = .none ↔ l = [] := by
  refine ⟨h.none, fun hl => ?_⟩
  cases hr : r.span with
  | none => rfl
  | some span =>
    obtain ⟨n, hmem⟩ := (h.first span hr).1
    rw [hl] at hmem
    exact nomatch hmem

/-- **Totals leave no choice**, whatever the order of what was added. -/
theorem Totals.eq_of_perm (h : r.Totals l) (h' : r'.Totals l') (hperm : l.Perm l') : r = r' := by
  have htimes : timesOf l = timesOf l' := by
    ext t
    simp [mem_timesOf, hperm.mem_iff]
  have hcount : r.count = r'.count := by
    rw [← Int32.toInt_inj, h.count, h'.count, (hperm.map _).sum_eq]
  have hnone : r.span = .none ↔ r'.span = .none := by
    have hnil : l = [] ↔ l' = [] := by rw [← List.length_eq_zero_iff, hperm.length_eq, List.length_eq_zero_iff]
    rw [h.span_eq_none_iff, h'.span_eq_none_iff, hnil]
  have hspan : r.span = r'.span := by
    cases hr : r.span with
    | none => exact (hnone.mp hr).symm
    | some span =>
      obtain ⟨span', hr'⟩ := Option.ne_none_iff_exists'.mp (mt hnone.mpr (by simp [hr]))
      have hfirst := Timestamp.eq_of_isLeast (h.first span hr) (htimes ▸ h'.first span' hr')
      have hlast := Timestamp.eq_of_isGreatest (h.last span hr) (htimes ▸ h'.last span' hr')
      rw [hr']
      exact congrArg some (Prod.ext hfirst hlast)
  cases r
  cases r'
  cases hcount
  cases hspan
  rfl

end Restarts

/-! ### The restarts of a group -/

/-- What the containers of a group add, in the order of their statuses. -/
def countsOf (statuses : List ContainerStatus) (platform : Bool) : List (Int32 × Timestamp) :=
  (statuses.filter fun s => s.isPlatform = platform).filterMap ContainerStatus.counted?

/-- The statuses of a group that count. -/
def countedOf (statuses : List ContainerStatus) (platform : Bool) : List ContainerStatus :=
  statuses.filter fun s => s.isPlatform = platform ∧ s.IsCounted

section Group

variable {statuses statuses' : List ContainerStatus} {platform : Bool}

theorem restartsOf_eq_foldl (statuses : List ContainerStatus) (platform : Bool) :
    restartsOf statuses platform = (countsOf statuses platform).foldl (fun r e => r.add e.1 e.2) .none := by
  rw [restartsOf, countsOf, List.foldl_filterMap]
  congr 1
  · funext r s
    cases s.counted? <;> rfl
  · refine List.filter_congr fun s _ => ?_
    cases platform <;> simp [ContainerStatus.isPlatform]

theorem mem_countsOf {n : Int32} {time : Timestamp} : (n, time) ∈ countsOf statuses platform ↔
    ∃ s ∈ statuses, s.isPlatform = platform ∧ n = s.restarts ∧ s.Counts time := by
  simp only [countsOf, List.mem_filterMap, List.mem_filter, decide_eq_true_eq, ContainerStatus.counted?_eq_some_iff,
    and_assoc]

theorem totals_restartsOf (statuses : List ContainerStatus) (platform : Bool) :
    (restartsOf statuses platform).Totals (countsOf statuses platform) := by
  rw [restartsOf_eq_foldl]
  refine Restarts.totals_none.foldl_add fun e he => ?_
  obtain ⟨s, -, -, hn, hcounts⟩ := mem_countsOf.mp he
  rw [hn]
  exact hcounts.restarted

theorem timesOf_countsOf (statuses : List ContainerStatus) (platform : Bool) :
    timesOf (countsOf statuses platform) = {t | ∃ s ∈ countedOf statuses platform, s.EndedAt t} := by
  ext t
  rw [mem_timesOf]
  simp only [mem_countsOf]
  constructor
  · rintro ⟨_, s, hs, hgroup, rfl, hcounts⟩
    have hcounted : s ∈ countedOf statuses platform := List.mem_filter.mpr ⟨hs, decide_eq_true ⟨hgroup, t, hcounts⟩⟩
    exact ⟨s, hcounted, hcounts.ended⟩
  · rintro ⟨s, hs, hended⟩
    obtain ⟨hs, hcounted⟩ := List.mem_filter.mp hs
    obtain ⟨hgroup, _, hcounts⟩ := of_decide_eq_true hcounted
    exact ⟨s.restarts, s, hs, hgroup, rfl, hcounts.restarted, hended⟩

theorem map_countsOf (statuses : List ContainerStatus) (platform : Bool) :
    (countsOf statuses platform).map (fun e => e.1.toInt) =
      (countedOf statuses platform).map fun s => s.restarts.toInt := by
  induction statuses with
  | nil => rfl
  | cons s statuses ih =>
    simp only [countsOf, countedOf, List.filter_cons, decide_eq_true_eq] at ih ⊢
    by_cases hgroup : s.isPlatform = platform
    · rw [if_pos hgroup, List.filterMap_cons]
      cases hcounted : s.counted? with
      | none =>
        have hnot : ¬ s.IsCounted := by simp [ContainerStatus.isCounted_iff, hcounted]
        rw [if_neg fun h => hnot h.2]
        exact ih
      | some e =>
        have his : s.IsCounted := by simp [ContainerStatus.isCounted_iff, hcounted]
        obtain ⟨hn, -⟩ := ContainerStatus.counted?_eq_some_iff.mp hcounted
        rw [if_pos ⟨hgroup, his⟩, List.map_cons, List.map_cons, ih, hn]
    · rw [if_neg hgroup, if_neg fun h => hgroup h.1]
      exact ih

/-- **The event of a group** does not depend on the order of the statuses: it is there exactly if one of them counts, and it is
the sum of the restarts, up to the largest count, from the first end to the last one. -/
theorem restarts_order_free (statuses : List ContainerStatus) (v : Uid .deploymentInstance) (platform : Bool) :
    (((restartsOf statuses platform).event? v platform).isSome ↔
      ∃ s ∈ statuses, s.isPlatform = platform ∧ s.IsCounted) ∧
    (∀ e, (restartsOf statuses platform).event? v platform = some e →
      e.info.count.toInt = min ((countedOf statuses platform).map fun s => s.restarts.toInt).sum (2 ^ 31 - 1) ∧
      IsLeast {t | ∃ s ∈ countedOf statuses platform, s.EndedAt t} e.info.firstTime ∧
      IsGreatest {t | ∃ s ∈ countedOf statuses platform, s.EndedAt t} e.info.lastTime) ∧
    ∀ statuses', statuses.Perm statuses' →
      (restartsOf statuses' platform).event? v platform = (restartsOf statuses platform).event? v platform := by
  have htotals := totals_restartsOf statuses platform
  refine ⟨?_, ?_, ?_⟩
  · rw [Restarts.event?, Option.isSome_map, Option.isSome_iff_ne_none, ne_eq, htotals.span_eq_none_iff]
    constructor
    · intro hne
      obtain ⟨⟨n, time⟩, hmem⟩ := List.exists_mem_of_ne_nil _ hne
      obtain ⟨s, hs, hgroup, -, hcounts⟩ := mem_countsOf.mp hmem
      exact ⟨s, hs, hgroup, time, hcounts⟩
    · rintro ⟨s, hs, hgroup, time, hcounts⟩
      exact List.ne_nil_of_mem (mem_countsOf.mpr ⟨s, hs, hgroup, rfl, hcounts⟩)
  · intro e he
    obtain ⟨span, hspan, rfl⟩ := Option.map_eq_some_iff.mp he
    rw [← timesOf_countsOf]
    refine ⟨?_, htotals.first span hspan, htotals.last span hspan⟩
    rw [← map_countsOf]
    exact htotals.count
  · intro statuses' hperm
    have hcounts : (countsOf statuses platform).Perm (countsOf statuses' platform) := (hperm.filter _).filterMap _
    rw [htotals.eq_of_perm (totals_restartsOf statuses' platform) hcounts]

end Group

/-- The containers of a pod: two of the customer's, the one as often restarted as can be counted, and the platform's, of which it
is not known when it ended before. -/
def worndownStatuses : List ContainerStatus :=
  [⟨headContainer, 2147483647, some ⟨some .epoch⟩, none⟩, ⟨"sidecar", 5, none, some ⟨some .epoch⟩⟩,
    ⟨runtimeContainer, 3, some ⟨none⟩, some ⟨some .epoch⟩⟩]

/-- The instance that is this pod. -/
def worndownInstance : Uid .deploymentInstance := .deploymentInstance (.deployment "t" "a" "Dev" "4") "p"

/-- The sum stays at the largest count, and the platform's container does not count though it is known when it ended now. -/
theorem restarts_worndown :
    ((restartsOf worndownStatuses true).event? worndownInstance true).isSome = false ∧
    ∃ e, (restartsOf worndownStatuses.reverse false).event? worndownInstance false = some e ∧
      e.info.count.toInt = 2 ^ 31 - 1 ∧
      IsLeast {t | ∃ s ∈ countedOf worndownStatuses false, s.EndedAt t} e.info.firstTime := by
  obtain ⟨hplatform, -, -⟩ := restarts_order_free worndownStatuses worndownInstance true
  obtain ⟨hcustomer, hvalues, hperm⟩ := restarts_order_free worndownStatuses worndownInstance false
  constructor
  · rw [← Bool.not_eq_true, hplatform]
    decide
  · obtain ⟨e, he⟩ := Option.isSome_iff_exists.mp (hcustomer.mpr (by decide))
    obtain ⟨hcount, hfirst, -⟩ := hvalues e he
    refine ⟨e, (hperm _ (List.reverse_perm _).symm).trans he, hcount.trans ?_, hfirst⟩
    decide

end FleetAtlas
