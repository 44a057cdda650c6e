import FleetAtlas.Entity.Json
import FleetAtlas.Storage.Export

/-!
# Storage calls that can fail

* `Fault`: a call that is going to fail once;
* `Service`: a store with the faults that wait for their call, and a journal of what was written;
* `Service.set`, `Service.get`, `Service.list`: the calls; a call that a fault strikes does nothing else;
* `Service.store`, `Service.fetch`, `Service.select`: the same for entities of a family.
-/

namespace FleetAtlas

/-! ### Faults -/

/-- The calls of a store that can fail. -/
inductive StoreCall where
  | set
  | get
  | list
deriving DecidableEq, Repr

/-- The failure of a call of one kind, for one family or any, after some that succeed. -/
structure Fault where
  call : StoreCall
  family : Option Family
  after : Nat
  message : String
deriving DecidableEq, Repr

namespace Fault

/-- Whether a fault waits for such a call. -/
def concerns (t : Fault) (call : StoreCall) (f : Family) : Bool :=
  t.call = call && (t.family = none || t.family = some f)

/-- The message of the first fault that is due, and the faults left; those passed on the way come a call closer. -/
def strike (call : StoreCall) (f : Family) : List Fault → Option String × List Fault
  | [] => (none, [])
  | t :: rest =>
    if t.concerns call f then
      match t.after with
      | 0 => (some t.message, rest)
      | n + 1 =>
        let (message, rest) := strike call f rest
        (message, { t with after := n } :: rest)
    else
      let (message, rest) := strike call f rest
      (message, t :: rest)

@[simp] theorem strike_nil (call : StoreCall) (f : Family) : strike call f [] = (none, []) := rfl

end Fault

/-! ### Calls -/

/-- A store, the faults that wait for their call, and the records written so far, the latest first. -/
structure Service where
  store : Store
  faults : List Fault
  journal : List (Family × String)

namespace Service

/-- A service on a store without faults. -/
def on (store : Store) : Service := ⟨store, [], []⟩

/-- Lets the faults see a call: the error of the one that strikes, if any. -/
def expose (s : Service) (call : StoreCall) (f : Family) : Except StorageError Unit × Service :=
  let (message, faults) := Fault.strike call f s.faults
  ((match message with
    | some text => .error (.other text)
    | none => .ok ()), { s with faults })

/-- Stores a record and notes it down. -/
def set (s : Service) (f : Family) (r : Record) : Except StorageError Unit × Service :=
  match s.expose .set f with
  | (.error e, s) => (.error e, s)
  | (.ok (), s) =>
    match s.store.set f r with
    | .error e => (.error e, s)
    | .ok store => (.ok (), { s with store, journal := (f, r.uid) :: s.journal })

/-- The record with a uid. -/
def get (s : Service) (f : Family) (uid : String) : Except StorageError (Option Record) × Service :=
  match s.expose .get f with
  | (.error e, s) => (.error e, s)
  | (.ok (), s) => (s.store.get f uid, s)

/-- The selected records of a family. -/
def list (s : Service) (f : Family) (selection : Selection) : Except StorageError (List Record) × Service :=
  match s.expose .list f with
  | (.error e, s) => (.error e, s)
  | (.ok (), s) => (s.store.list f selection, s)

/-- Leaves no record. -/
def drop (s : Service) : Service := { s with store := s.store.drop }

/-! ### Entities -/

/-- The entity that a record holds, or the error that it holds none. -/
def decode (f : Family) (r : Record) : Except StorageError (Entity f) :=
  match Entity.ofRecord? f r with
  | some e => .ok e
  | none => .error .malformed

variable {f : Family}

/-- Stores an entity. -/
def save (s : Service) (e : Entity f) : Except StorageError Unit × Service := s.set f e.toRecord

/-- The entity with a uid. -/
def fetch (s : Service) (f : Family) (uid : String) : Except StorageError (Option (Entity f)) × Service :=
  let (answer, s) := s.get f uid
  (do
    match ← answer with
    | none => return none
    | some r => return some (← decode f r), s)

/-- The selected entities of a family. -/
def select (s : Service) (f : Family) (selection : Selection) : Except StorageError (List (Entity f)) × Service :=
  let (answer, s) := s.list f selection
  (do (← answer).mapM (decode f), s)

/-- The export of all records. -/
def export? (s : Service) : Except StorageError (List Record) × Service :=
  let list (f : Family) : ExceptT StorageError (StateM Service) (List Record) := fun s => s.list f .all
  (Export.gather list).run s

end Service

end FleetAtlas
