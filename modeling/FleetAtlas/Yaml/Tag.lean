import FleetAtlas.Yaml.Quoted

/-!
# Tags

A tag says what kind of thing a node is. It is a sequence of octets, which need not be a text.

* `Tag.null`, `Tag.bool`, `Tag.int`, `Tag.float`: the tags of the core that say something about a scalar;
* `Tag.localName?`: the name of a tag that begins with an exclamation mark;
* `readUri?`, `readHandle?`, `readTag?`: how tags are written;
* `TagHandles`: what the handles of a document stand for.
-/

namespace FleetAtlas.Yaml

/-- What kind of thing a node is. -/
structure Tag where
  octets : List UInt8
deriving DecidableEq, Inhabited

namespace Tag

/-- The tag that a text is. -/
def ofString (text : String) : Tag := ⟨text.toUTF8.toList⟩

/-- Where the tags of the core begin. -/
def core : Tag := ofString "tag:yaml.org,2002:"

/-- One tag behind another. -/
def append (s t : Tag) : Tag := ⟨s.octets ++ t.octets⟩

instance : Append Tag := ⟨append⟩

/-- The tag of nothing. -/
def null : Tag := core ++ ofString "null"

/-- The tag of truth values. -/
def bool : Tag := core ++ ofString "bool"

/-- The tag of integers. -/
def int : Tag := core ++ ofString "int"

/-- The tag of numbers. -/
def float : Tag := core ++ ofString "float"

/-- The tag that is no more than an exclamation mark. -/
def unspecific : Tag := ofString "!"

/-- Whether a tag begins with an exclamation mark. -/
def isLocal (t : Tag) : Bool := t.octets.head? = some 0x21

/-- The name behind the exclamation mark of a tag, which is that mark itself if nothing follows it; only a text is a
name. -/
def localName? (t : Tag) : Option String :=
  if t.isLocal then String.fromUTF8? ⟨(if t = unspecific then t.octets else t.octets.drop 1).toArray⟩ else none

/-- Octets up to the first that is zero. -/
def upToZero (octets : List UInt8) : Tag := ⟨octets.takeWhile (· ≠ 0)⟩

end Tag

/-! ### How tags are written -/

/-- A character of a tag; in angle brackets a comma and square brackets are some, too. -/
def isUriChar (verbatim : Bool) (c : Char) : Bool :=
  isNameChar c || [';', '/', '?', ':', '@', '&', '=', '+', '$', '.', '!', '~', '*', '\'', '(', ')'].contains c
    || (verbatim && [',', '[', ']'].contains c)

/-- How many octets must follow an octet of an escaped character, of which so many were to come. -/
def followers? (pending octet : Nat) : Option Nat :=
  match pending with
  | 0 =>
    if octet < 0x80 then some 0
    else if 0xC0 ≤ octet ∧ octet < 0xE0 then some 1
    else if 0xE0 ≤ octet ∧ octet < 0xF0 then some 2
    else if 0xF0 ≤ octet ∧ octet < 0xF8 then some 3
    else none
  | n + 1 => if 0x80 ≤ octet ∧ octet < 0xC0 then some n else none

/-- The octets of a tag and what follows; so many octets of an escaped character are still to come. -/
def readUri? (verbatim : Bool) (pending : Nat) : List Char → Option (List UInt8 × List Char)
  | [] => if pending = 0 then some ([], []) else none
  | '%' :: a :: b :: rest => do
    let octet ← digits? 16 [a, b]
    let pending ← followers? pending octet
    let (octets, rest) ← readUri? verbatim pending rest
    return (octet.toUInt8 :: octets, rest)
  | c :: rest =>
    if pending ≠ 0 || c = '%' then none
    else if isUriChar verbatim c then
      (readUri? verbatim 0 rest).map fun (octets, rest) => (c.toNat.toUInt8 :: octets, rest)
    else some ([], c :: rest)

/-- The octets of a tag, at least one. -/
def readSomeUri? (verbatim : Bool) (cs : List Char) : Option (Tag × List Char) :=
  (readUri? verbatim 0 cs).bind fun (octets, rest) => if octets.isEmpty then none else some (.upToZero octets, rest)

/-- An exclamation mark, a name, and another exclamation mark if it follows. -/
def readHandle? : List Char → Option (String × List Char)
  | '!' :: rest =>
    let name := '!' :: rest.takeWhile isNameChar
    match rest.dropWhile isNameChar with
    | '!' :: rest => some (String.ofList (name ++ ['!']), rest)
    | rest => some (String.ofList name, rest)
  | _ => none

/-- Whether a text is a handle in front of a tag. -/
def isHandle (text : String) : Bool := text.toList.getLast? = some '!' && text ≠ "!"

/-- A tag from its exclamation mark on: its handle, which is empty when the tag is given as it is, and the rest of it; a
gap follows, or in brackets a comma. -/
def readTag? (flow : Bool) (cs : List Char) : Option (String × Tag × List Char) := do
  let (handle, tag, rest) ←
    match cs with
    | '!' :: '<' :: rest =>
      match ← readSomeUri? true rest with
      | (tag, '>' :: rest) => some ("", tag, rest)
      | _ => none
    | cs => do
      let (handle, rest) ← readHandle? cs
      if isHandle handle then
        let (tag, rest) ← readSomeUri? false rest
        some (handle, tag, rest)
      else
        let (octets, rest) ← readUri? false 0 rest
        let tag := Tag.upToZero ((Tag.ofString handle).octets.drop 1 ++ octets)
        some (if tag.octets.isEmpty then ("", .unspecific, rest) else ("!", tag, rest))
  if atGap rest || (flow && rest.head? = some ',') then some (handle, tag, rest) else none

/-! ### Handles -/

/-- What handles stand for. -/
abbrev TagHandles := List (String × Tag)

namespace TagHandles

/-- The handles that every document has. -/
def standard : TagHandles := [("!", .unspecific), ("!!", .core)]

/-- The tag that a handle and the rest of a tag stand for. -/
def resolve? (handles : TagHandles) (handle : String) (tag : Tag) : Option Tag :=
  if handle.isEmpty then some tag else (handles.lookup handle).map (· ++ tag)

end TagHandles

end FleetAtlas.Yaml
