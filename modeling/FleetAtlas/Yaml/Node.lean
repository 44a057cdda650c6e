import FleetAtlas.Dict
import FleetAtlas.Yaml.Token

/-!
# Nodes

A `Node` is a part of a document as it is written: a scalar, a sequence, a mapping, or a reference to a node that
carries an anchor. A `Source` is what is left to be read of a document. Each function reads what its name says and
returns it with the source that is left; the depth of nesting is bounded by a number of calls.

* `Node.read?`: a node;
* `Node.readBlockItems?`, `Node.readIndentlessItems?`, `Node.readBlockEntries?`: what is written by indentation;
* `Node.readFlowItems?`, `Node.readFlowEntries?`: what is written in brackets;
* `Node.anchored`: the nodes with anchors, in the order in which they begin; `Node.size`: how much is written.
-/

namespace FleetAtlas.Yaml

/-- What stands in front of a node: an anchor, by its number, and a tag. -/
structure Properties where
  anchor : Option Nat
  tag : Option Tag

/-- A part of a document as it is written. -/
inductive Node where
  | reference (anchor : Nat)
  | scalar (properties : Properties) (style : Style) (text : String)
  | sequence (properties : Properties) (items : List Node)
  | mapping (properties : Properties) (entries : List (Node × Node))

/-- What is left to be read, and the anchors that were met. -/
structure Source where
  tokens : List Token
  /-- The number of the latest anchor of each name. -/
  anchors : Dict String Nat

namespace Source

/-- The source from another token on. -/
def dropTo (s : Source) (tokens : List Token) : Source := { s with tokens }

/-- Meets an anchor; its number is that of the names met before. -/
def meet (s : Source) (name : String) : Nat × Source :=
  (s.anchors.toList.length, { s with anchors := s.anchors.insert name s.anchors.toList.length })

/-- An anchor, if one stands here. -/
def readAnchor (s : Source) : Option Nat × Source :=
  match s.tokens with
  | .anchor name :: rest =>
    let (number, s) := (s.dropTo rest).meet name
    (some number, s)
  | _ => (none, s)

/-- A tag, if one stands here. -/
def readTag? (s : Source) (handles : TagHandles) : Option (Option Tag × Source) :=
  match s.tokens with
  | .tag handle tag :: rest => (handles.resolve? handle tag).map fun tag => (some tag, s.dropTo rest)
  | _ => some (none, s)

/-- An anchor and a tag in either order, if they stand here. -/
def readProperties? (s : Source) (handles : TagHandles) : Option (Properties × Source) := do
  match s.readAnchor with
  | (some anchor, s) =>
    let (tag, s) ← s.readTag? handles
    return (⟨some anchor, tag⟩, s)
  | (none, s) =>
    let (tag, s) ← s.readTag? handles
    if tag.isNone then return (⟨none, none⟩, s)
    let (anchor, s) := s.readAnchor
    return (⟨anchor, tag⟩, s)

end Source

namespace Properties

/-- Nothing stands in front of a node. -/
def none : Properties := ⟨.none, .none⟩

/-- Whether something stands in front of a node. -/
def isSome (p : Properties) : Bool := p.anchor.isSome || p.tag.isSome

/-- What stands in front of a scalar, where the tag that is no more than an exclamation mark says nothing. -/
def ofScalar (p : Properties) : Properties := if p.tag = some .unspecific then { p with tag := .none } else p

end Properties

namespace Node

/-- What stands where nothing is written. -/
def absent : Node := .scalar .none .plain ""

/-- Whether nothing is written in front of a token that ends an item. -/
def endsItem : List Token → Bool
  | .blockEntry :: _ | .blockEnd :: _ => true
  | _ => false

/-- Whether nothing is written in front of a token that ends an item of a sequence without an indentation of its own. -/
def endsIndentlessItem : List Token → Bool
  | .blockEntry :: _ | .key :: _ | .value :: _ | .blockEnd :: _ => true
  | _ => false

/-- Whether nothing is written in front of a token that ends a key or a value. -/
def endsEntry : List Token → Bool
  | .key :: _ | .value :: _ | .blockEnd :: _ => true
  | _ => false

/-- Whether nothing is written in front of a token that ends a value between brackets. -/
def endsFlowValue : List Token → Bool
  | .flowEntry :: _ | .flowSequenceEnd :: _ | .flowMappingEnd :: _ => true
  | _ => false

/-- Whether nothing is written in front of a token that ends a key between braces. -/
def endsFlowKey : List Token → Bool
  | .value :: _ | .flowEntry :: _ | .flowMappingEnd :: _ => true
  | _ => false

mutual

/-- A node; one outside brackets if it is said so, and there perhaps a sequence without an indentation of its own. -/
def read? (handles : TagHandles) (block indentless : Bool) : Nat → Source → Option (Node × Source)
  | 0, _ => none
  | n + 1, s =>
    match s.tokens with
    | .reference name :: rest => (s.anchors.get? name).map fun number => (.reference number, s.dropTo rest)
    | _ => do
      let (p, s) ← s.readProperties? handles
      match s.tokens with
      | .scalar style text :: rest => return (.scalar p.ofScalar style text, s.dropTo rest)
      | .flowSequenceStart :: rest =>
        let (items, s) ← readFlowItems? handles true n (s.dropTo rest)
        return (.sequence p items, s)
      | .flowMappingStart :: rest =>
        let (entries, s) ← readFlowEntries? handles true n (s.dropTo rest)
        return (.mapping p entries, s)
      | token :: rest =>
        if token = .blockEntry && indentless then
          let (items, s) ← readIndentlessItems? handles n s
          return (.sequence p items, s)
        else if token = .blockSequenceStart && block then
          let (items, s) ← readBlockItems? handles n (s.dropTo rest)
          return (.sequence p items, s)
        else if token = .blockMappingStart && block then
          let (entries, s) ← readBlockEntries? handles n (s.dropTo rest)
          return (.mapping p entries, s)
        else if p.isSome then return (.scalar p .plain "", s)
        else none
      | [] => if p.isSome then return (.scalar p .plain "", s) else none

/-- The items of a sequence up to the end of its indentation. -/
def readBlockItems? (handles : TagHandles) : Nat → Source → Option (List Node × Source)
  | 0, _ => none
  | n + 1, s =>
    match s.tokens with
    | .blockEnd :: rest => some ([], s.dropTo rest)
    | .blockEntry :: rest => do
      let (item, s) ←
        if endsItem rest then some (absent, s.dropTo rest) else read? handles true false n (s.dropTo rest)
      let (items, s) ← readBlockItems? handles n s
      return (item :: items, s)
    | _ => none

/-- The items of a sequence that is indented as the mapping around it. -/
def readIndentlessItems? (handles : TagHandles) : Nat → Source → Option (List Node × Source)
  | 0, _ => none
  | n + 1, s =>
    match s.tokens with
    | .blockEntry :: rest => do
      let (item, s) ←
        if endsIndentlessItem rest then some (absent, s.dropTo rest) else read? handles true false n (s.dropTo rest)
      let (items, s) ← readIndentlessItems? handles n s
      return (item :: items, s)
    | _ => some ([], s)

/-- The entries of a mapping up to the end of its indentation. -/
def readBlockEntries? (handles : TagHandles) : Nat → Source → Option (List (Node × Node) × Source)
  | 0, _ => none
  | n + 1, s =>
    match s.tokens with
    | .blockEnd :: rest => some ([], s.dropTo rest)
    | .key :: rest => do
      let (key, s) ← if endsEntry rest then some (absent, s.dropTo rest) else read? handles true true n (s.dropTo rest)
      let (value, s) ← readBlockValue? handles n s
      let (entries, s) ← readBlockEntries? handles n s
      return ((key, value) :: entries, s)
    | _ => none

/-- The value behind a key, if one is written. -/
def readBlockValue? (handles : TagHandles) : Nat → Source → Option (Node × Source)
  | 0, _ => none
  | n + 1, s =>
    match s.tokens with
    | .value :: rest => if endsEntry rest then some (absent, s.dropTo rest) else read? handles true true n (s.dropTo rest)
    | _ => some (absent, s)

/-- The items up to a closing bracket, from the first of all or from a comma on. -/
def readFlowItems? (handles : TagHandles) (first : Bool) : Nat → Source → Option (List Node × Source)
  | 0, _ => none
  | n + 1, s =>
    match s.tokens, first with
    | .flowSequenceEnd :: rest, _ => some ([], s.dropTo rest)
    | .flowEntry :: rest, false => readFlowItem? handles n (s.dropTo rest)
    | _, true => readFlowItem? handles n s
    | _, false => none

/-- An item and those behind it, or the closing bracket. An item that begins with a key is a mapping of one entry. -/
def readFlowItem? (handles : TagHandles) : Nat → Source → Option (List Node × Source)
  | 0, _ => none
  | n + 1, s => do
    match s.tokens with
    | .flowSequenceEnd :: rest => return ([], s.dropTo rest)
    | .key :: rest =>
      let (key, s) ← readFlowPairKey? handles n (s.dropTo rest)
      let (value, s) ← readFlowValue? handles n s
      let (items, s) ← readFlowItems? handles false n s
      return (.mapping .none [(key, value)] :: items, s)
    | _ =>
      let (item, s) ← read? handles false false n s
      let (items, s) ← readFlowItems? handles false n s
      return (item :: items, s)

/-- The key of an item; where none is written, the token that shows this is left out. -/
def readFlowPairKey? (handles : TagHandles) : Nat → Source → Option (Node × Source)
  | 0, _ => none
  | n + 1, s =>
    match s.tokens with
    | .value :: rest | .flowEntry :: rest | .flowSequenceEnd :: rest => some (absent, s.dropTo rest)
    | _ => read? handles false false n s

/-- The value behind a key between brackets, if one is written. -/
def readFlowValue? (handles : TagHandles) : Nat → Source → Option (Node × Source)
  | 0, _ => none
  | n + 1, s =>
    match s.tokens with
    | .value :: rest =>
      if endsFlowValue rest then some (absent, s.dropTo rest) else read? handles false false n (s.dropTo rest)
    | _ => some (absent, s)

/-- The entries up to a closing brace, from the first of all or from a comma on. -/
def readFlowEntries? (handles : TagHandles) (first : Bool) : Nat → Source → Option (List (Node × Node) × Source)
  | 0, _ => none
  | n + 1, s =>
    match s.tokens, first with
    | .flowMappingEnd :: rest, _ => some ([], s.dropTo rest)
    | .flowEntry :: rest, false => readFlowPair? handles n (s.dropTo rest)
    | _, true => readFlowPair? handles n s
    | _, false => none

/-- An entry and those behind it, or the closing brace. -/
def readFlowPair? (handles : TagHandles) : Nat → Source → Option (List (Node × Node) × Source)
  | 0, _ => none
  | n + 1, s => do
    match s.tokens with
    | .flowMappingEnd :: rest => return ([], s.dropTo rest)
    | .key :: rest =>
      let (key, s) ←
        if endsFlowKey rest then some (absent, s.dropTo rest) else read? handles false false n (s.dropTo rest)
      let (value, s) ← readFlowValue? handles n s
      let (entries, s) ← readFlowEntries? handles false n s
      return ((key, value) :: entries, s)
    | _ =>
      let (key, s) ← read? handles false false n s
      let (entries, s) ← readFlowEntries? handles false n s
      return ((key, absent) :: entries, s)

end

mutual

/-- How much is written: one for a scalar or a reference, two more than its parts for a sequence or a mapping. -/
def size : Node → Nat
  | .reference _ | .scalar .. => 1
  | .sequence _ items => 2 + sizes items
  | .mapping _ entries => 2 + entrySizes entries

/-- How much is written in items. -/
def sizes : List Node → Nat
  | [] => 0
  | n :: rest => n.size + sizes rest

/-- How much is written in entries. -/
def entrySizes : List (Node × Node) → Nat
  | [] => 0
  | (k, v) :: rest => k.size + v.size + entrySizes rest

end

mutual

/-- The nodes with anchors, in the order in which they begin, with the numbers of their anchors. -/
def anchored : Node → List (Nat × Node)
  | .reference _ => []
  | .scalar p style text => p.anchor.toList.map fun number => (number, .scalar p style text)
  | .sequence p items => (p.anchor.toList.map fun number => (number, .sequence p items)) ++ itemsAnchored items
  | .mapping p entries => (p.anchor.toList.map fun number => (number, .mapping p entries)) ++ entriesAnchored entries

/-- The nodes with anchors in items. -/
def itemsAnchored : List Node → List (Nat × Node)
  | [] => []
  | n :: rest => n.anchored ++ itemsAnchored rest

/-- The nodes with anchors in entries. -/
def entriesAnchored : List (Node × Node) → List (Nat × Node)
  | [] => []
  | (k, v) :: rest => k.anchored ++ v.anchored ++ entriesAnchored rest

end

end Node

end FleetAtlas.Yaml
