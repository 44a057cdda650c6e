import FleetAtlas.Family
import FleetAtlas.Record
import FleetAtlas.Storage.Error
import FleetAtlas.Storage.Selection

/-!
# The graph model

* `Graph`: nodes by family label and uid, with edges to the nodes that they refer to;
* `Graph.write`: writes a node and its edges, making a stub of every target that is not there yet;
* `Graph.set`, `Graph.get`, `Graph.list`: records put in and read back.

A node keeps the labels it was ever given, has at most one edge of a relationship, and holds no `null` property.
A node without properties is a stub, which no record shows.
-/

namespace FleetAtlas

/-- A label or relationship that may stand in a query: ASCII letters and digits, at least one. -/
def isIdentifier (text : String) : Bool := !text.toList.isEmpty && text.toList.all Char.isAlphanum

/-- The text, if it may stand in a query. -/
def checkIdentifier (text : String) : Except StorageError String :=
  if isIdentifier text then .ok text else .error (.invalidIdentifier text)

/-- The end of an edge: the label and the uid of a node. -/
structure NodeRef where
  label : String
  uid : String
deriving DecidableEq, Repr

/-- A node, its edges by relationship. -/
structure GraphNode where
  labels : Dict String Unit
  properties : Dict String Json
  edges : Dict String NodeRef
deriving DecidableEq

namespace GraphNode

/-- A node without labels, properties and edges. -/
def empty : GraphNode := ⟨∅, ∅, ∅⟩

/-- A node that was only referred to. -/
def stub (label : String) : GraphNode := { empty with labels := (∅ : Dict String Unit).insert label () }

end GraphNode

/-- An edge to be written. -/
structure Edge where
  relationship : String
  target : NodeRef
deriving DecidableEq, Repr

/-- Nodes by label and uid. -/
structure Graph where
  nodes : Dict String (Dict String GraphNode)
deriving DecidableEq

namespace Graph

/-- No node at all. -/
def empty : Graph := ⟨∅⟩

instance : Inhabited Graph := ⟨empty⟩

/-- The nodes of a label. -/
def labelled (g : Graph) (label : String) : Dict String GraphNode := g.nodes.getD label ∅

/-- The node of a label with a uid. -/
def find? (g : Graph) (label uid : String) : Option GraphNode := (g.labelled label).get? uid

/-- Puts a node in. -/
def put (g : Graph) (label uid : String) (node : GraphNode) : Graph :=
  ⟨g.nodes.insert label ((g.labelled label).insert uid node)⟩

/-- Puts a stub in where there is no node. -/
def ensure (g : Graph) (ref : NodeRef) : Graph :=
  match g.find? ref.label ref.uid with
  | some _ => g
  | none => g.put ref.label ref.uid (.stub ref.label)

/-- The node after a write: its labels and edges grow, its properties are replaced by those that are not `null`. -/
def updated (node : GraphNode) (labels : List String) (properties : Dict String Json) (edges : List Edge) :
    GraphNode where
  labels := labels.foldl (fun ls l => ls.insert l ()) node.labels
  properties := properties.filter fun _ j => !j.isNull
  edges := edges.foldl (fun es e => es.insert e.relationship e.target) node.edges

/-- Writes a node and its edges. -/
def write (g : Graph) (label uid : String) (extra : Option String) (properties : Dict String Json)
    (edges : List Edge) : Graph :=
  let g := edges.foldl (fun g e => g.ensure e.target) g
  let node := (g.find? label uid).getD .empty
  g.put label uid (updated node (label :: extra.toList) properties edges)

/-! ### Records -/

/-- The edge of a link, which has to be one of the family's. -/
def edgeOf (f : Family) (name uid : String) : Except StorageError Edge :=
  match f.link? name with
  | some l => .ok ⟨l.relationship, ⟨l.target.label, uid⟩⟩
  | none => .error (.other (f.label ++ " has no link named " ++ name))

/-- The label of a kind that is not the family's own. -/
def extraLabel (f : Family) (kind : String) : Except StorageError (Option String) :=
  if kind = f.label then .ok none else (checkIdentifier kind).map some

/-- Stores a record, or changes nothing: links are checked before the kind. -/
def set (g : Graph) (f : Family) (r : Record) : Except StorageError Graph := do
  let edges ← r.links.toList.mapM fun e => edgeOf f e.1 e.2
  let extra ← extraLabel f r.kind
  return g.write f.label r.uid extra r.properties edges

/-- The kind that a node shows: its first label, in order, that is not the family's. -/
def kindOf (f : Family) (node : GraphNode) : String :=
  (node.labels.keys.find? fun l => l ≠ f.label).getD f.label

/-- The links that a node shows: its edges of relationships of the family. -/
def linksOf (f : Family) (node : GraphNode) : Dict String String :=
  .ofList (node.edges.toList.filterMap fun e => (f.relationship? e.1).map fun l => (l.name, e.2.uid))

/-- The record of a node, unless it is a stub. -/
def recordOf? (f : Family) (uid : String) (node : GraphNode) : Option Record :=
  if node.properties.isEmpty then none
  else some ⟨uid, kindOf f node, node.properties, linksOf f node⟩

/-- The record with a uid. -/
def get (g : Graph) (f : Family) (uid : String) : Option Record := (g.find? f.label uid).bind (recordOf? f uid)

/-- The selected nodes of a label, by uid. -/
def findAll (g : Graph) (label : String) (s : Selection) : List (String × GraphNode) :=
  (g.labelled label).toList.filter fun e => s.admits e.2.properties

/-- The selected records of a family, by uid. -/
def list (g : Graph) (f : Family) (s : Selection) : List Record :=
  (g.findAll f.label s).filterMap fun e => recordOf? f e.1 e.2

end Graph

end FleetAtlas
