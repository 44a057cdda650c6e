import FleetAtlas.Handler.Events
import FleetAtlas.Handler.Pods
import FleetAtlas.Handler.Topology

/-!
# What is observed

* `Observed`: the kinds of objects whose changes are handled, `Observed.Object` the objects of a kind;
* `Observed.handle`: the handler of a kind;
* `ByKind β`: something for each kind.
-/

namespace FleetAtlas

/-- The kinds of objects whose changes are handled. -/
inductive Observed where
  | namespaces
  | nodes
  | replicaSets
  | pods
  | events
deriving DecidableEq, Inhabited, Repr

namespace Observed

/-- Every kind. -/
def all : List Observed := [namespaces, nodes, replicaSets, pods, events]

theorem mem_all (k : Observed) : k ∈ all := by cases k <;> decide

/-- The name under which metrics count a kind. -/
def name : Observed → String
  | namespaces => "namespaces"
  | nodes => "nodes"
  | replicaSets => "replicasets"
  | pods => "pods"
  | events => "events"

/-- The objects of a kind. -/
def Object : Observed → Type
  | namespaces => Namespace
  | nodes => ClusterNode
  | replicaSets => ReplicaSet
  | pods => Pod
  | events => ClusterEvent

instance (k : Observed) : ClusterObject k.Object :=
  match k with
  | namespaces => inferInstanceAs (ClusterObject Namespace)
  | nodes => inferInstanceAs (ClusterObject ClusterNode)
  | replicaSets => inferInstanceAs (ClusterObject ReplicaSet)
  | pods => inferInstanceAs (ClusterObject Pod)
  | events => inferInstanceAs (ClusterObject ClusterEvent)

/-- What is done about an object that is there, or was deleted. -/
def handle (caches : Caches) : (k : Observed) → k.Object → Bool → Task Unit
  | namespaces => handleNamespace
  | nodes => handleClusterNode
  | replicaSets => handleReplicaSet
  | pods => handlePod caches
  | events => handleEvent caches

end Observed

/-- Something for each kind. -/
structure ByKind (β : Observed → Type) where
  namespaces : β .namespaces
  nodes : β .nodes
  replicaSets : β .replicaSets
  pods : β .pods
  events : β .events

namespace ByKind

variable {β γ : Observed → Type}

/-- The same for each kind. -/
def ofFun (f : (k : Observed) → β k) : ByKind β := ⟨f .namespaces, f .nodes, f .replicaSets, f .pods, f .events⟩

/-- What there is for a kind. -/
def get (b : ByKind β) : (k : Observed) → β k
  | .namespaces => b.namespaces
  | .nodes => b.nodes
  | .replicaSets => b.replicaSets
  | .pods => b.pods
  | .events => b.events

/-- Replaces what there is for a kind. -/
def set (b : ByKind β) : (k : Observed) → β k → ByKind β
  | .namespaces, x => { b with namespaces := x }
  | .nodes, x => { b with nodes := x }
  | .replicaSets, x => { b with replicaSets := x }
  | .pods, x => { b with pods := x }
  | .events, x => { b with events := x }

/-- Changes what there is for every kind. -/
def map (b : ByKind β) (f : (k : Observed) → β k → γ k) : ByKind γ := ofFun fun k => f k (b.get k)

@[simp] theorem get_ofFun (f : (k : Observed) → β k) (k : Observed) : (ofFun f).get k = f k := by cases k <;> rfl

@[simp] theorem get_map (b : ByKind β) (f : (k : Observed) → β k → γ k) (k : Observed) :
    (b.map f).get k = f k (b.get k) := by cases k <;> rfl

@[simp] theorem get_set_self (b : ByKind β) (k : Observed) (x : β k) : (b.set k x).get k = x := by cases k <;> rfl

theorem get_set_of_ne (b : ByKind β) {k l : Observed} (h : l ≠ k) (x : β k) : (b.set k x).get l = b.get l := by
  cases k <;> cases l <;> first | rfl | exact absurd rfl h

end ByKind

end FleetAtlas
