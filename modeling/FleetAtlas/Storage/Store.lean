import FleetAtlas.Storage.Documents
import FleetAtlas.Storage.Graph

/-!
# Stores

A `Store` holds records in one of the two models; `set`, `get`, `list` and `drop` are what every model does.
-/

namespace FleetAtlas

/-- Records, in the document model or in the graph model. -/
inductive Store where
  | documents (d : Documents)
  | graph (g : Graph)
deriving DecidableEq

namespace Store

/-- Stores a record under its uid. -/
def set : Store → Family → Record → Except StorageError Store
  | documents d, f, r => .ok (documents (d.set f r))
  | graph g, f, r => (g.set f r).map graph

/-- The record with a uid. -/
def get : Store → Family → String → Except StorageError (Option Record)
  | documents d, f, uid => d.get f uid
  | graph g, f, uid => .ok (g.get f uid)

/-- The selected records of a family, by uid. -/
def list : Store → Family → Selection → Except StorageError (List Record)
  | documents d, f, s => d.list f s
  | graph g, f, s => .ok (g.list f s)

/-- The store of the same model without any record. -/
def drop : Store → Store
  | documents _ => documents .empty
  | graph _ => graph .empty

end Store

end FleetAtlas
