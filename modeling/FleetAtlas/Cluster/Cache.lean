import FleetAtlas.Cluster.Object

/-!
# Watch caches

* `WatchEvent`: what a watch says about the objects of a kind;
* `Cache`: the objects as the watch has them, the buffer that a new listing fills, and whether a listing was completed;
* `Cache.find?`: the look-up by key; an object without namespace is found under its name in any of them.
-/

namespace FleetAtlas

/-- What a watch says: a listing begins, shows an object or is complete; an object is there, or is gone. -/
inductive WatchEvent (κ : Type) where
  | init
  | initApply (object : κ)
  | initDone
  | apply (object : κ)
  | delete (object : κ)

/-- The objects of a kind as the watch has them. -/
structure Cache (κ : Type) where
  objects : Dict ObjectKey κ
  buffer : Dict ObjectKey κ
  ready : Bool

namespace Cache

variable {κ : Type}

/-- The cache of a watch that has said nothing yet. -/
def empty : Cache κ := ⟨∅, ∅, false⟩

instance : Inhabited (Cache κ) := ⟨empty⟩

/-- The object with a key, or the one with the same name and no namespace. -/
def find? (c : Cache κ) (key : ObjectKey) : Option κ :=
  c.objects.get? key <|> c.objects.get? { key with scope := none }

/-- The object of a name in a namespace. -/
def lookup (c : Cache κ) (scope name : String) : Option κ := c.find? ⟨some scope, name⟩

/-- The objects in the order of their keys. -/
def list (c : Cache κ) : List κ := c.objects.values

variable [ClusterObject κ]

/-- The cache after an event; a completed listing takes the place of all that was there. -/
def observe (c : Cache κ) : WatchEvent κ → Cache κ
  | .init => { c with buffer := ∅ }
  | .initApply object => { c with buffer := c.buffer.insert (.of object) object }
  | .initDone => ⟨c.buffer, ∅, true⟩
  | .apply object => { c with objects := c.objects.insert (.of object) object }
  | .delete object => { c with objects := c.objects.erase (.of object) }

/-- The cache of a listing. -/
def ofList (objects : List κ) : Cache κ :=
  ((objects.foldl (fun c o => c.observe (.initApply o)) (empty.observe .init))).observe .initDone

end Cache

end FleetAtlas
