import FleetAtlas.Json.Writer
import FleetAtlas.Storage.Store

/-!
# Exports

* `Export.prefixed`: a record whose uids carry the name of their family, so that they are unique across families;
* `Export.gather`: the records of all families in order;
* `Export.text`: a line of JSON for each record.
-/

namespace FleetAtlas.Export

/-- The name in front of the uid of a record: its kind for an event, the label of the family for anything else. -/
def ownPrefix (f : Family) (kind : String) : String := if f = .event then kind else f.label

/-- A record with the names of the families in front of its uid and of the uids that its links hold. -/
def prefixed (f : Family) (r : Record) : Record :=
  { r with
    uid := ownPrefix f r.kind ++ ":" ++ r.uid
    links := r.links.mapValues fun name uid =>
      match f.link? name with
      | some l => l.target.label ++ ":" ++ uid
      | none => uid }

/-- The records of the families, one family after the other. -/
def gatherFrom {m : Type → Type} [Monad m] (list : Family → m (List Record)) : List Family → m (List Record)
  | [] => pure []
  | f :: rest => do
    let records ← list f
    let others ← gatherFrom list rest
    return records.map (prefixed f) ++ others

/-- The records of all families in the order of an export. -/
def gather {m : Type → Type} [Monad m] (list : Family → m (List Record)) : m (List Record) :=
  gatherFrom list Family.all

/-- The lines of records. -/
def lines (records : List Record) : List String := records.map fun r => r.toJson.write

/-- The text of records: each line ends in a line feed. -/
def text (records : List Record) : String := String.join ((lines records).map (· ++ "\n"))

end FleetAtlas.Export

namespace FleetAtlas

/-- The exported records of a store. -/
def Store.exported (s : Store) : Except StorageError (List Record) := Export.gather fun f => s.list f .all

end FleetAtlas
