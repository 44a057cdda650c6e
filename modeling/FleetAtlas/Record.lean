import FleetAtlas.Json.Basic

/-!
# Records

* `Record`: an entity of any family as storage handles it: its uid, its kind, JSON properties, and links by name;
* `Record.toJson`, `Record.ofJson?`: its JSON form, in which missing properties and links are empty ones.
-/

namespace FleetAtlas

/-- An entity of any family, as storage handles it. -/
structure Record where
  uid : String
  kind : String
  properties : Dict String Json
  links : Dict String String
deriving DecidableEq

namespace Record

/-- The fields of a record in JSON, with whether they may be missing. -/
def fieldNames : List (String × Bool) := [("uid", false), ("type", false), ("properties", true), ("links", true)]

/-- The links of a record in JSON. -/
def linksJson (links : Dict String String) : Json := .ofDict (links.mapValues fun _ uid => .str uid)

/-- The JSON form of a record; links are left out when there are none. -/
def toJson (r : Record) : Json :=
  .obj ([("uid", .str r.uid), ("type", .str r.kind), ("properties", .ofDict r.properties)]
    ++ if r.links.isEmpty then [] else [("links", linksJson r.links)])

/-- The record of a JSON value. -/
def ofJson? (j : Json) : Option Record := do
  let fields ← j.fieldsOf? fieldNames
  let uid ← Json.required? fields "uid" Json.str?
  let kind ← Json.required? fields "type" Json.str?
  let properties ← Json.defaulted? fields "properties" ∅ Json.dict?
  let links ← Json.defaulted? fields "links" ∅ (Json.entries? Json.str?)
  return { uid, kind, properties, links }

end Record

end FleetAtlas
