import FleetAtlas.Family
import FleetAtlas.Record
import FleetAtlas.Storage.Error
import FleetAtlas.Storage.Selection

/-!
# The document model

* `Documents`: collections of documents by id, a collection for each family;
* `Record.toDocument`, `Record.ofDocument?`: a record as a document;
* `Documents.set`, `Documents.get`, `Documents.list`: records put in and read back.

A link is the bare uid of its target, so what it refers to need not be there.
-/

namespace FleetAtlas

/-! ### Documents of records -/

namespace Record

/-- The document of a record. -/
def toDocument (r : Record) : Json :=
  .obj [("_id", .str r.uid), ("_type", .str r.kind), ("links", linksJson r.links), ("properties", .ofDict r.properties)]

/-- The record of a document, in which missing properties and links are empty ones. -/
def ofDocument? (document : Json) : Option Record := do
  let fields ← document.fieldsOf? [("_id", false), ("_type", false), ("properties", true), ("links", true)]
  let uid ← Json.required? fields "_id" Json.str?
  let kind ← Json.required? fields "_type" Json.str?
  let properties ← Json.defaulted? fields "properties" ∅ Json.dict?
  let links ← Json.defaulted? fields "links" ∅ (Json.entries? Json.str?)
  return { uid, kind, properties, links }

/-- The record of a document, or the error that it is none. -/
def ofDocument (document : Json) : Except StorageError Record :=
  match ofDocument? document with
  | some r => .ok r
  | none => .error .malformed

end Record

/-! ### Collections -/

/-- Documents by collection and id. -/
structure Documents where
  collections : Dict String (Dict String Json)
deriving DecidableEq

namespace Documents

/-- No document at all. -/
def empty : Documents := ⟨∅⟩

instance : Inhabited Documents := ⟨empty⟩

/-- The documents of a collection. -/
def collection (d : Documents) (name : String) : Dict String Json := d.collections.getD name ∅

/-- Puts a document into a collection, in place of the one with its id. -/
def upsert (d : Documents) (name id : String) (document : Json) : Documents :=
  ⟨d.collections.insert name ((d.collection name).insert id document)⟩

/-- The document with an id. -/
def find? (d : Documents) (name id : String) : Option Json := (d.collection name).get? id

/-- Whether a document is selected by its properties; one without them has none set. -/
def admits (s : Selection) (document : Json) : Bool :=
  match document.field? "properties" with
  | some (.obj fields) => s.holds fun name => Json.lookup name fields
  | _ => s.holds fun _ => none

/-- The selected documents of a collection, by id. -/
def findAll (d : Documents) (name : String) (s : Selection) : List Json :=
  (d.collection name).values.filter (admits s)

/-! ### Records -/

/-- Stores a record, in place of the one with its uid. -/
def set (d : Documents) (f : Family) (r : Record) : Documents := d.upsert f.collection r.uid r.toDocument

/-- The record with a uid. -/
def get (d : Documents) (f : Family) (uid : String) : Except StorageError (Option Record) :=
  match d.find? f.collection uid with
  | none => .ok none
  | some document => (Record.ofDocument document).map some

/-- The selected records of a family, by uid. -/
def list (d : Documents) (f : Family) (s : Selection) : Except StorageError (List Record) :=
  (d.findAll f.collection s).mapM Record.ofDocument

end Documents

end FleetAtlas
