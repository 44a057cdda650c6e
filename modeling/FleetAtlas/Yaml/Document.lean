import FleetAtlas.Yaml.Layout
import FleetAtlas.Yaml.Value

/-!
# Documents

* `Directives.read?`: what is said in front of a document;
* `Document.ofTokens?`: the one document of a text, a mark in front of it and any number of end marks behind it;
* `read?`: the value of the document of a text, nothing when there is no document.
-/

namespace FleetAtlas.Yaml

/-- What is said in front of a document. -/
structure Directives where
  hasVersion : Bool
  handles : TagHandles

namespace Directives

/-- Nothing is said. -/
def none : Directives := ⟨false, []⟩

/-- The handles that hold in the document; the standard ones do unless they were given another meaning. -/
def allHandles (d : Directives) : TagHandles := d.handles ++ .standard

/-- What is said in front of the mark of a document, and what follows the mark. A version is said once, and each handle
once. -/
def read? (d : Directives) : List Token → Option (Directives × List Token)
  | .version major minor :: rest =>
    if !d.hasVersion && major = 1 && (minor = 1 || minor = 2) then read? { d with hasVersion := true } rest else .none
  | .tagHandle handle tag :: rest =>
    if (d.handles.lookup handle).isSome then .none else read? { d with handles := d.handles ++ [(handle, tag)] } rest
  | .documentStart :: rest => some (d, rest)
  | _ => .none

end Directives

namespace Document

/-- Whether a document needs no mark in front of it. -/
def isBare : List Token → Bool
  | .version .. :: _ | .tagHandle .. :: _ | .documentStart :: _ => false
  | _ => true

/-- Whether a document with a mark holds nothing. -/
def isBlank : List Token → Bool
  | [] | .version .. :: _ | .tagHandle .. :: _ | .documentStart :: _ | .documentEnd :: _ => true
  | _ => false

/-- The root of a document, and what follows it. -/
def readRoot? (handles : TagHandles) (tokens : List Token) : Option (Node × List Token) :=
  (Node.read? handles true false (4 * tokens.length + 8) ⟨tokens, .empty⟩).map fun (node, s) => (node, s.tokens)

/-- The root of the one document, if there is one. -/
def ofTokens? (tokens : List Token) : Option (Option Node) := do
  if tokens.isEmpty then return none
  let (root, rest) ←
    if isBare tokens then readRoot? .standard tokens
    else do
      let (directives, rest) ← Directives.none.read? tokens
      if isBlank rest then some (.absent, rest) else readRoot? directives.allHandles rest
  if rest.all (· = .documentEnd) then return some root else none

end Document

/-- The value of the one document of a text, nothing when there is no document. -/
def read? (text : String) : Option (Option Value) := do
  let cs := text.toList
  if !cs.all isPrintable then none
  match ← Document.ofTokens? (← Token.ofText? (normalizeEnds cs)) with
  | none => return none
  | some root => return some (← root.value?)

end FleetAtlas.Yaml
