import FleetAtlas.Yaml.Node
import FleetAtlas.Yaml.Scalar

/-!
# Values

A `Value` is a part of a document in which every reference is replaced by what it refers to.

* `Node.expand?`: the value of a node; the depth of nesting and the number of references are bounded;
* `Value.meaning?`: what a scalar stands for, as its tag and its way of writing say;
* `Value.isReadable`: whether all scalars of a value stand for something.
-/

namespace FleetAtlas.Yaml

/-- A part of a document without references. -/
inductive Value where
  | scalar (tag : Option Tag) (style : Style) (text : String)
  | sequence (tag : Option Tag) (items : List Value)
  | mapping (tag : Option Tag) (entries : List (Value × Value))

/-- The depth of nesting that is not exceeded. -/
def depthLimit : Nat := 128

/-- The number of references that may be followed in a document of a size. -/
def referenceLimit (size : Nat) : Nat := size * 100

namespace Node

/-- The node that a reference refers to, which takes one of the references that are left; any other node is itself. -/
def target? (targets : List (Nat × Node)) (node : Node) : StateT Nat Option Node := do
  match node with
  | .reference number =>
    match ← get with
    | 0 => failure
    | left + 1 =>
      set left
      targets.lookup number
  | node => return node

/-- The value of a node in which so many sequences and mappings may be nested; of the nodes with an anchor of the same
number the first of the targets counts. -/
def expand? (targets : List (Nat × Node)) : Nat → Node → StateT Nat Option Value
  | 0, node => do
    match ← node.target? targets with
    | .scalar p style text => return .scalar p.tag style text
    | _ => failure
  | depth + 1, node => do
    match ← node.target? targets with
    | .scalar p style text => return .scalar p.tag style text
    | .sequence p items => return .sequence p.tag (← items.mapM (expand? targets depth))
    | .mapping p entries =>
      return .mapping p.tag
        (← entries.mapM fun (k, v) => do return (← expand? targets depth k, ← expand? targets depth v))
    | .reference _ => failure

/-- The value of the root of a document: a reference means the latest node with an anchor of its number. -/
def value? (root : Node) : Option Value :=
  ((root.expand? root.anchored.reverse depthLimit).run (referenceLimit root.size)).map Prod.fst

end Node

namespace Value

/-- What stands where nothing is written. -/
def absent : Value := .scalar none .plain ""

/-- What a scalar stands for. Without a tag only a plain one is more than a text. -/
def meaning? (tag : Option Tag) (style : Style) (text : String) : Option Plain :=
  match tag with
  | none => some (if style = .plain then resolve text else .text)
  | some tag =>
    if tag.localName?.isSome then none
    else if tag = .bool then (readBool? text).map .bool
    else if tag = .int then (readInt? text.toList).bind ofInt?
    else if tag = .float then if isNumber text then some .float else none
    else if tag = .null then if isNullWord text then some .null else none
    else some (if tag.isLocal && style = .plain then resolve text else .text)

/-- Whether a tag has a name of its own, which says what the value is for. -/
def isNamed (tag : Option Tag) : Bool := tag.any fun t => t.localName?.isSome

mutual

/-- Whether every scalar stands for something, no integer takes too many bits, and nothing has a tag with a name of its
own. -/
def isReadable : Value → Bool
  | .scalar tag style text => (meaning? tag style text).any (· ≠ .wide)
  | .sequence tag items => !isNamed tag && areReadable items
  | .mapping tag entries => !isNamed tag && entriesReadable entries

/-- Whether all values are readable. -/
def areReadable : List Value → Bool
  | [] => true
  | v :: rest => v.isReadable && areReadable rest

/-- Whether all keys and values are readable. -/
def entriesReadable : List (Value × Value) → Bool
  | [] => true
  | (k, v) :: rest => k.isReadable && v.isReadable && entriesReadable rest

end

end Value

end FleetAtlas.Yaml
