import FleetAtlas.Dict

/-!
# JSON values

* `Json`: a value; integers are apart from numbers written with a point or an exponent;
* `Json.field?`: the value of a field, the first of its name;
* `Json.fieldsOf?`: an object, or the array of its fields in a known order.
-/

namespace FleetAtlas

/-- A JSON value. `decimal m p` is `m / 10 ^ p`, a number that was not written as an integer. -/
inductive Json where
  | null
  | bool (b : Bool)
  | int (n : Int)
  | decimal (mantissa : Int) (places : Nat)
  | str (s : String)
  | arr (items : List Json)
  | obj (fields : List (String × Json))
deriving Inhabited

namespace Json

/-! ### Equality -/

mutual

/-- Equality of values is decidable. -/
def decEq (a b : Json) : Decidable (a = b) :=
  match a, b with
  | .null, .null => isTrue rfl
  | .bool x, .bool y => if h : x = y then isTrue (h ▸ rfl) else isFalse fun e => h (by injection e)
  | .int x, .int y => if h : x = y then isTrue (h ▸ rfl) else isFalse fun e => h (by injection e)
  | .decimal x p, .decimal y q =>
    if h : x = y ∧ p = q then isTrue (h.1 ▸ h.2 ▸ rfl)
    else isFalse fun e => h (by injection e with h₁ h₂; exact ⟨h₁, h₂⟩)
  | .str x, .str y => if h : x = y then isTrue (h ▸ rfl) else isFalse fun e => h (by injection e)
  | .arr x, .arr y =>
    match decEqItems x y with
    | isTrue h => isTrue (h ▸ rfl)
    | isFalse h => isFalse fun e => h (by injection e)
  | .obj x, .obj y =>
    match decEqFields x y with
    | isTrue h => isTrue (h ▸ rfl)
    | isFalse h => isFalse fun e => h (by injection e)
  | .null, .bool _ | .null, .int _ | .null, .decimal _ _ | .null, .str _ | .null, .arr _ | .null, .obj _
  | .bool _, .null | .bool _, .int _ | .bool _, .decimal _ _ | .bool _, .str _ | .bool _, .arr _ | .bool _, .obj _
  | .int _, .null | .int _, .bool _ | .int _, .decimal _ _ | .int _, .str _ | .int _, .arr _ | .int _, .obj _
  | .decimal _ _, .null | .decimal _ _, .bool _ | .decimal _ _, .int _ | .decimal _ _, .str _
  | .decimal _ _, .arr _ | .decimal _ _, .obj _
  | .str _, .null | .str _, .bool _ | .str _, .int _ | .str _, .decimal _ _ | .str _, .arr _ | .str _, .obj _
  | .arr _, .null | .arr _, .bool _ | .arr _, .int _ | .arr _, .decimal _ _ | .arr _, .str _ | .arr _, .obj _
  | .obj _, .null | .obj _, .bool _ | .obj _, .int _ | .obj _, .decimal _ _ | .obj _, .str _ | .obj _, .arr _ =>
    isFalse nofun

/-- Equality of item lists is decidable. -/
def decEqItems (a b : List Json) : Decidable (a = b) :=
  match a, b with
  | [], [] => isTrue rfl
  | [], _ :: _ | _ :: _, [] => isFalse nofun
  | x :: xs, y :: ys =>
    match decEq x y with
    | isFalse h => isFalse fun e => h (by injection e)
    | isTrue h =>
      match decEqItems xs ys with
      | isFalse h' => isFalse fun e => h' (by injection e)
      | isTrue h' => isTrue (h ▸ h' ▸ rfl)

/-- Equality of field lists is decidable. -/
def decEqFields (a b : List (String × Json)) : Decidable (a = b) :=
  match a, b with
  | [], [] => isTrue rfl
  | [], _ :: _ | _ :: _, [] => isFalse nofun
  | (k, x) :: xs, (l, y) :: ys =>
    if hk : k = l then
      match decEq x y with
      | isFalse h => isFalse fun e => h (by injection e with e _; injection e)
      | isTrue h =>
        match decEqFields xs ys with
        | isFalse h' => isFalse fun e => h' (by injection e)
        | isTrue h' => isTrue (hk ▸ h ▸ h' ▸ rfl)
    else isFalse fun e => hk (by injection e with e _; injection e)

end

instance : DecidableEq Json := decEq

/-! ### Parts of a value -/

/-- The value of a field, the first of its name. -/
def lookup (name : String) : List (String × Json) → Option Json
  | [] => none
  | (k, v) :: rest => if k = name then some v else lookup name rest

/-- The value of a field of an object. -/
def field? (name : String) : Json → Option Json
  | .obj fields => lookup name fields
  | _ => none

/-- The text of a string. -/
def str? : Json → Option String
  | .str s => some s
  | _ => none

/-- The number of an integer. -/
def int? : Json → Option Int
  | .int n => some n
  | _ => none

/-- The truth value of a boolean. -/
def bool? : Json → Option Bool
  | .bool b => some b
  | _ => none

/-- The items of an array. -/
def arr? : Json → Option (List Json)
  | .arr items => some items
  | _ => none

/-- The fields of an object. -/
def obj? : Json → Option (List (String × Json))
  | .obj fields => some fields
  | _ => none

/-- Whether the value is `null`. -/
def isNull : Json → Bool
  | .null => true
  | _ => false

/-- The object of a map. -/
def ofDict (d : Dict String Json) : Json := .obj d.toList

/-- The map of an object. -/
def dict? : Json → Option (Dict String Json)
  | .obj fields => some (.ofList fields)
  | _ => none

/-- The string, or `null`. -/
def ofOption : Option Json → Json
  | some j => j
  | none => .null

/-! ### Structures -/

/-- The fields of a structure: an object, or the array of its fields in order, of which only fields that may be
missing (`true`) can be left out at the end. -/
def fieldsOf? (names : List (String × Bool)) : Json → Option (List (String × Json))
  | .obj fields => some fields
  | .arr items =>
    if items.length ≤ names.length ∧ (names.drop items.length).all Prod.snd then
      some ((names.map Prod.fst).zip items)
    else none
  | _ => none

/-- Reads a field that has to be there. -/
def required? {α : Type} (fields : List (String × Json)) (name : String) (read : Json → Option α) : Option α :=
  (lookup name fields).bind read

/-- Reads a field that may be missing or `null`. -/
def optional? {α : Type} (fields : List (String × Json)) (name : String) (read : Json → Option α) :
    Option (Option α) :=
  match lookup name fields with
  | none | some .null => some none
  | some j => (read j).map some

/-- Reads a field that has a value when it is missing, but not when it is `null`. -/
def defaulted? {α : Type} (fields : List (String × Json)) (name : String) (default : α)
    (read : Json → Option α) : Option α :=
  match lookup name fields with
  | none => some default
  | some j => read j

/-- Reads every value of an object. -/
def entries? {α : Type} (read : Json → Option α) : Json → Option (Dict String α)
  | .obj fields => (fields.mapM fun e => (read e.2).map fun v => (e.1, v)).map Dict.ofList
  | _ => none

/-- Reads every item of an array. -/
def items? {α : Type} (read : Json → Option α) : Json → Option (List α)
  | .arr items => items.mapM read
  | _ => none

end Json

end FleetAtlas
