import FleetAtlas.Dict
import FleetAtlas.Time.Timestamp

/-!
# Objects of a cluster

* `Metadata` and the objects that carry it: `Namespace`, `ClusterNode`, `ReplicaSet`, `Pod`, `ClusterEvent`,
  `ConfigMap`, `Secret`, each with the parts that matter to the fleet;
* `ObjectKey`: the namespace and the name of an object;
* `ClusterObject`: what the kinds of objects have in common.
-/

namespace FleetAtlas

/-! ### Metadata -/

/-- The reference of an object to one that owns it. -/
structure OwnerReference where
  kind : String
  name : String
deriving DecidableEq

structure Metadata where
  name : Option String
  generateName : Option String
  scope : Option String
  uid : Option String
  resourceVersion : Option String
  created : Option Timestamp
  annotations : Dict String String
  labels : Dict String String
  owners : List OwnerReference
deriving DecidableEq

namespace Metadata

/-- Metadata that says nothing. -/
def empty : Metadata := ⟨none, none, none, none, none, none, ∅, ∅, []⟩

instance : Inhabited Metadata := ⟨empty⟩

/-- The name, or the text that a name is generated from. -/
def anyName (m : Metadata) : String := (m.name <|> m.generateName).getD ""

end Metadata

/-! ### Keys -/

/-- The namespace and the name of an object; an object outside of all namespaces has none. -/
structure ObjectKey where
  scope : Option String
  name : String
deriving DecidableEq, Inhabited

namespace ObjectKey

/-- The parts of a key. -/
def path : ObjectKey → List String
  | ⟨none, name⟩ => [name]
  | ⟨some scope, name⟩ => [scope, name]

theorem path_inj {a b : ObjectKey} (h : a.path = b.path) : a = b := by
  obtain ⟨s, n⟩ := a
  obtain ⟨t, m⟩ := b
  cases s <;> cases t <;> simp_all [path]

instance : LT ObjectKey := ⟨fun a b => a.path < b.path⟩
instance : DecidableLT ObjectKey := fun a b => inferInstanceAs (Decidable (a.path < b.path))

instance : LinearKey ObjectKey where
  irrefl a := List.lt_irrefl a.path
  trans h₁ h₂ := List.lt_trans h₁ h₂
  connex h₁ h₂ := path_inj (LinearKey.connex h₁ h₂)

/-- `namespace/name`, or the name alone. -/
def text : ObjectKey → String
  | ⟨none, name⟩ => name
  | ⟨some scope, name⟩ => scope ++ "/" ++ name

end ObjectKey

/-! ### Kinds of objects -/

structure Namespace where
  metadata : Metadata
deriving DecidableEq, Inhabited

structure ClusterNode where
  metadata : Metadata
deriving DecidableEq, Inhabited

structure ConfigMap where
  metadata : Metadata
  data : Dict String String
  binaryData : Dict String (List UInt8)
deriving DecidableEq, Inhabited

structure Secret where
  metadata : Metadata
  data : Dict String (List UInt8)
deriving DecidableEq, Inhabited

/-- The objects from which a container takes variables: the name of a config map, or of a secret. -/
structure EnvironmentSource where
  configMap : Option String
  secret : Option String
deriving DecidableEq

structure Container where
  name : String
  image : Option String
  environment : List EnvironmentSource
deriving DecidableEq

/-- A volume, with the name of the config map that fills it, if one does. -/
structure Volume where
  name : String
  configMap : Option String
deriving DecidableEq

structure PodSpec where
  containers : List Container
  volumes : List Volume
  nodeName : Option String
deriving DecidableEq

structure ReplicaSet where
  metadata : Metadata
  template : Option PodSpec
deriving DecidableEq, Inhabited

/-- How a container ended. -/
structure Termination where
  finished : Option Timestamp
deriving DecidableEq

/-- How a container does: its last end, and its end if it has ended now. -/
structure ContainerStatus where
  name : String
  restarts : Int32
  last : Option Termination
  current : Option Termination
deriving DecidableEq

structure Pod where
  metadata : Metadata
  spec : Option PodSpec
  phase : Option String
  statuses : List ContainerStatus
deriving DecidableEq, Inhabited

/-- The object that an event of the cluster is about. -/
structure InvolvedObject where
  kind : Option String
  scope : Option String
  name : Option String
  fieldPath : Option String
deriving DecidableEq, Inhabited

structure ClusterEvent where
  metadata : Metadata
  involved : InvolvedObject
  reason : Option String
  message : Option String
  count : Option Int32
  first : Option Timestamp
  last : Option Timestamp
  time : Option Timestamp
deriving DecidableEq, Inhabited

/-! ### What objects have in common -/

/-- A kind of objects: each has metadata. -/
class ClusterObject (κ : Type) where
  metadata : κ → Metadata

instance : ClusterObject Namespace := ⟨Namespace.metadata⟩
instance : ClusterObject ClusterNode := ⟨ClusterNode.metadata⟩
instance : ClusterObject ConfigMap := ⟨ConfigMap.metadata⟩
instance : ClusterObject Secret := ⟨Secret.metadata⟩
instance : ClusterObject ReplicaSet := ⟨ReplicaSet.metadata⟩
instance : ClusterObject Pod := ⟨Pod.metadata⟩
instance : ClusterObject ClusterEvent := ⟨ClusterEvent.metadata⟩

/-- The key of an object. -/
def ObjectKey.of {κ : Type} [ClusterObject κ] (object : κ) : ObjectKey :=
  let m := ClusterObject.metadata object
  ⟨m.scope, m.anyName⟩

/-- The version of an object. -/
def versionOf {κ : Type} [ClusterObject κ] (object : κ) : Option String :=
  (ClusterObject.metadata object).resourceVersion

end FleetAtlas
