import FleetAtlas.Proofs.Handler.BackOff
import FleetAtlas.Proofs.Storage.Saved

/-!
# What messages about waiting report

A message about waiting before the next try says by one word whether a container is started again or an image is pulled again.
The message about an image names it, and the name may have either word in it.

* `backOffKind?_eq_failedToStart_iff`, `backOffKind?_eq_failedToPull_iff`: the words that a message is told by;
* `pullMessage`, `infix_pullMessage_iff`: of the message about an image, the name matters;
* `ClusterEvent.BacksOff`, `exists_eventEntity?`: the events of the cluster of which something is stored;
* `Observed.call_reports_pull`: **what is stored of a message about an image** is a pull that failed, unless the name of the
  image says that something is restarting;
* `Observed.call_reports_start`: there are such names.
-/

namespace FleetAtlas

open FleetAtlas.Task

/-! ### Words -/

/-- The words of which a message about waiting has one. -/
def restartingWord : List Char := "restarting".toList

def pullingWord : List Char := "pulling".toList

theorem backOffKind?_eq_failedToStart_iff {message : String} :
    backOffKind? message = some .failedToStart ↔ restartingWord <:+: message.toList := by
  rw [← hasPart_iff]
  unfold backOffKind?
  split
  · next h => exact iff_of_true rfl h
  · next h => split <;> exact iff_of_false nofun h

theorem backOffKind?_eq_failedToPull_iff {message : String} :
    backOffKind? message = some .failedToPull ↔ pullingWord <:+: message.toList ∧ ¬ restartingWord <:+: message.toList := by
  rw [← hasPart_iff, ← hasPart_iff]
  unfold backOffKind?
  split
  · next h => exact iff_of_false nofun fun hboth => hboth.2 h
  · next h =>
    split
    · next hpulling => exact iff_of_true rfl ⟨hpulling, h⟩
    · next hpulling => exact iff_of_false nofun fun hboth => hpulling hboth.1

/-! ### The message about an image -/

/-- The message about waiting before an image is pulled again. -/
def pullMessage (image : String) : String := "Back-off pulling image \"" ++ image ++ "\""

theorem toList_pullMessage (image : String) :
    (pullMessage image).toList = "Back-off pulling image ".toList ++ '"' :: (image.toList ++ '"' :: []) := by
  have hopening : "Back-off pulling image \"".toList = "Back-off pulling image ".toList ++ ['"'] := by decide
  have hclosing : "\"".toList = ['"'] := by decide
  unfold pullMessage
  rw [String.toList_append, String.toList_append, hopening, hclosing, List.append_assoc, List.append_assoc,
    List.singleton_append]

/-- A word without quotation marks is in the message if it is in its beginning or in the name of the image. -/
theorem infix_pullMessage_iff {word : List Char} (hquote : '"' ∉ word) (hword : word ≠ []) {image : String} :
    word <:+: (pullMessage image).toList ↔ word <:+: "Back-off pulling image ".toList ∨ word <:+: image.toList := by
  rw [toList_pullMessage, infix_between_iff hquote hquote, List.infix_nil]
  simp only [hword, or_false]

theorem restarting_infix_pullMessage_iff {image : String} :
    restartingWord <:+: (pullMessage image).toList ↔ restartingWord <:+: image.toList := by
  have hbeginning : ¬ restartingWord <:+: "Back-off pulling image ".toList := by
    rw [← hasPart_iff]
    decide
  rw [infix_pullMessage_iff (by decide) (by decide)]
  exact or_iff_right hbeginning

theorem pulling_infix_pullMessage (image : String) : pullingWord <:+: (pullMessage image).toList := by
  have hbeginning : pullingWord <:+: "Back-off pulling image ".toList := by
    rw [← hasPart_iff]
    decide
  exact (infix_pullMessage_iff (by decide) (by decide)).mpr (.inl hbeginning)

/-- **The message about an image** always reports something; the name of the image decides what. -/
theorem backOffKind?_pullMessage (image : String) : backOffKind? (pullMessage image) =
    some (if hasPart restartingWord image.toList then .failedToStart else .failedToPull) := by
  split
  · next h =>
    rw [backOffKind?_eq_failedToStart_iff, restarting_infix_pullMessage_iff]
    exact hasPart_iff.mp h
  · next h =>
    rw [backOffKind?_eq_failedToPull_iff, restarting_infix_pullMessage_iff]
    exact ⟨pulling_infix_pullMessage image, fun hword => h (hasPart_iff.mpr hword)⟩

/-! ### What is stored -/

/-- An event of the cluster says with a message that a pod of a microservice waits before the next try. -/
structure ClusterEvent.BacksOff (e : ClusterEvent) (c : Caches) (message : String) : Prop where
  involved : (involvedInstance? c e).isSome
  reason : e.reason = some "BackOff"
  text : e.message = some message
  timed : (e.first <|> e.time).isSome

variable {c : Caches} {e : ClusterEvent} {message : String}

/-- **Of such an event, something is stored** if its message reports something. -/
theorem exists_eventEntity? (h : e.BacksOff c message) {kind : EventKind} (hkind : backOffKind? message = some kind) :
    ∃ entity : Event, eventEntity? c e = some entity ∧ entity.Made ∧
      entity.uid = .clusterEvent (e.metadata.uid.getD "") ∧ entity.kind = kind.name := by
  obtain ⟨u, hu⟩ := Option.isSome_iff_exists.mp h.involved
  obtain ⟨first, hfirst⟩ := Option.isSome_iff_exists.mp h.timed
  refine ⟨.event (.clusterEvent (e.metadata.uid.getD "")) kind (e.count.getD 1) first (e.last.getD first)
    (hasPart runtimeContainer.toList (e.involved.fieldPath.getD "").toList) u, ?_, .event .., rfl, rfl⟩
  have hmessage : backOffKind? (e.message.getD "") = some kind := by
    rw [h.text]
    exact hkind
  unfold eventEntity?
  simp only [hu, h.reason, hmessage, hfirst, Option.bind_eq_bind, Option.bind_some, if_true]
  rfl

theorem Store.takes_of_made {f : Family} {entity : Entity f} (h : entity.Made) (s : Store) : s.Takes f entity.toRecord := by
  cases s with
  | documents d => exact ⟨_, rfl⟩
  | graph g =>
    obtain ⟨g', hset⟩ := Graph.exists_set_iff_accepts (g := g).mpr h.accepts
    exact ⟨_, Store.set_graph_of_ok hset⟩

/-- **Without faults, the event is stored.** -/
theorem stores_of_eventEntity? {entity : Event} (hentity : eventEntity? c e = some entity) (hmade : entity.Made)
    (cached : List Pod) {site : Site} (hfaults : site.service.faults = []) :
    (Observed.call .events c e false cached site).1 = .ok () ∧
      site.service.store.set .event entity.toRecord = .ok (Observed.call .events c e false cached site).2.service.store := by
  obtain ⟨s', hset⟩ := site.service.store.takes_of_made hmade
  obtain ⟨service, hservice, hstore, -⟩ := Service.set_of_faults_nil hfaults hset
  have hcall : Observed.call .events c e false cached site = (.ok (), { site with service }) := by
    show run cached (handleEvent c e false) site = _
    unfold handleEvent
    rw [if_neg Bool.false_ne_true, hentity]
    show run cached (set .event entity.toRecord (done ())) site = _
    rw [run, hservice]
    rfl
  rw [hcall]
  exact ⟨rfl, hset.trans (congrArg Except.ok hstore.symm)⟩

/-- **An event is read back with its kind**, if nothing else was stored under its uid with another one. -/
theorem Store.Saved.kind_of_set {s s' : Store} {entity : Event}
    (h : s.Saved fun f old => f = .event → old.uid.text = entity.uid.text → old.kind = entity.kind)
    (hset : s.set .event entity.toRecord = .ok s') :
    ∃ stored : Event, s'.fetch? entity.uid = some stored ∧ stored.kind = entity.kind := by
  obtain ⟨stored, hfetch, -⟩ := Store.fetch?_set_self hset
  obtain ⟨r, hget, hr⟩ := Store.exists_get_of_fetch? hfetch
  have hsaved : s'.Saved fun f old => f = .event → old.uid.text = entity.uid.text → old.kind = entity.kind :=
    h.save (fun _ _ => rfl) hset
  obtain ⟨old, hold, huid, hkind⟩ := hsaved.exists_kind hget hr
  exact ⟨stored, hfetch, hkind.trans (hold rfl huid)⟩

/-- **What is stored of a message about an image.**  A message that has the word `restarting` reports that something does not
start, one that has only the word `pulling` reports that an image cannot be pulled.  So a message about an image reports a
start exactly if the name of the image has the word `restarting` in it, and else a pull; and a call for an event of the
cluster with this message ends well, without faults, and stores an event of this kind, which is read back with it unless it
was stored with another kind before. -/
theorem Observed.call_reports_pull (image : String) :
    (∀ message, (backOffKind? message = some .failedToStart ↔ restartingWord <:+: message.toList) ∧
      (backOffKind? message = some .failedToPull ↔
        pullingWord <:+: message.toList ∧ ¬ restartingWord <:+: message.toList)) ∧
    (backOffKind? (pullMessage image) = some .failedToPull ↔ ¬ restartingWord <:+: image.toList) ∧
    ∀ (c : Caches) (e : ClusterEvent) (cached : List Pod) (site : Site), e.BacksOff c (pullMessage image) →
      site.service.faults = [] → (Observed.call .events c e false cached site).1 = .ok () ∧
        ∃ entity : Event, entity.uid = .clusterEvent (e.metadata.uid.getD "") ∧
          site.service.store.set .event entity.toRecord =
            .ok (Observed.call .events c e false cached site).2.service.store ∧
          (entity.kind = EventKind.failedToPull.name ↔ ¬ restartingWord <:+: image.toList) ∧
          (entity.kind = EventKind.failedToStart.name ↔ restartingWord <:+: image.toList) ∧
          ((site.service.store.Saved fun f old =>
              f = .event → old.uid.text = entity.uid.text → old.kind = entity.kind) →
            ∃ stored : Event, (Observed.call .events c e false cached site).2.service.store.fetch? entity.uid = some stored ∧
              stored.kind = entity.kind) := by
  refine ⟨fun message => ⟨backOffKind?_eq_failedToStart_iff, backOffKind?_eq_failedToPull_iff⟩, ?_, ?_⟩
  · rw [backOffKind?_eq_failedToPull_iff, restarting_infix_pullMessage_iff]
    exact and_iff_right (pulling_infix_pullMessage image)
  · intro c e cached site hbacksOff hfaults
    obtain ⟨entity, hentity, hmade, huid, hkind⟩ := exists_eventEntity? hbacksOff (backOffKind?_pullMessage image)
    obtain ⟨hok, hset⟩ := stores_of_eventEntity? hentity hmade cached hfaults
    refine ⟨hok, entity, huid, hset, ?_, ?_, fun hsaved => hsaved.kind_of_set hset⟩
    · rw [hkind, ← hasPart_iff]
      split
      · next h => exact iff_of_false (by decide) (not_not.mpr h)
      · next h => exact iff_of_true rfl h
    · rw [hkind, ← hasPart_iff]
      split
      · next h => exact iff_of_true rfl h
      · next h => exact iff_of_false (by decide) h

/-! ### Images of the shop -/

/-- An image of the shop's pod cannot be pulled. -/
def pullBackOffOf (image : String) : ClusterEvent := { shopBackOff with message := some (pullMessage image) }

/-- The call for the event while nothing is stored. -/
def pullCall (image : String) : Except Failure Unit × Site :=
  Observed.call .events servedCaches (pullBackOffOf image) false [] emptySite

theorem backsOff_pullBackOffOf (image : String) : (pullBackOffOf image).BacksOff servedCaches (pullMessage image) where
  involved := by
    show (involvedInstance? servedCaches shopBackOff).isSome = true
    decide +kernel
  reason := rfl
  text := rfl
  timed := rfl

/-- An image that does not say that something is restarting, though it says so almost. -/
theorem Observed.call_reports_almost :
    (pullBackOffOf "shop/restart-pulling:1.2").BacksOff servedCaches (pullMessage "shop/restart-pulling:1.2") ∧
    (pullCall "shop/restart-pulling:1.2").1 = .ok () ∧
    ∃ stored : Event, (pullCall "shop/restart-pulling:1.2").2.service.store.fetch? backOffUid = some stored ∧
      stored.kind = "FailedToPullEvent" := by
  have hname : ¬ restartingWord <:+: "shop/restart-pulling:1.2".toList := by
    rw [← hasPart_iff]
    decide
  have hbacksOff := backsOff_pullBackOffOf "shop/restart-pulling:1.2"
  obtain ⟨-, -, hcalls⟩ := Observed.call_reports_pull "shop/restart-pulling:1.2"
  obtain ⟨hok, entity, huid, -, hpull, -, hread⟩ := hcalls servedCaches _ [] emptySite hbacksOff rfl
  obtain ⟨stored, hfetch, hkind⟩ := hread .documents
  rw [huid] at hfetch
  exact ⟨hbacksOff, hok, stored, hfetch, hkind.trans (hpull.mpr hname)⟩

/-- **Of an image that says that something is restarting**, it is stored that a container does not start. -/
theorem Observed.call_reports_start :
    backOffKind? (pullMessage "shop/restarting-tests:1.2") = some .failedToStart ∧
    (pullBackOffOf "shop/restarting-tests:1.2").BacksOff servedCaches (pullMessage "shop/restarting-tests:1.2") ∧
    (pullCall "shop/restarting-tests:1.2").1.toOption = some () ∧
    ((pullCall "shop/restarting-tests:1.2").2.service.store.fetch? backOffUid).map (fun e : Event => e.kind) =
      some "FailedToStartEvent" :=
  ⟨by decide +kernel, backsOff_pullBackOffOf _, by decide +kernel, by decide +kernel⟩

end FleetAtlas
