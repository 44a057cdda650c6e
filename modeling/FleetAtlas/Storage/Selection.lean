import FleetAtlas.Json.Basic

/-!
# Selections

A `Selection` says which records of a family a list shows.
-/

namespace FleetAtlas

/-- Which records of a family are listed. -/
inductive Selection where
  | all
  /-- Those in which a property is missing or `null`. -/
  | unset (property : String)
deriving DecidableEq, Repr

namespace Selection

/-- Whether properties that are found by name are selected. -/
def holds (s : Selection) (find : String → Option Json) : Bool :=
  match s with
  | all => true
  | unset property =>
    match find property with
    | none => true
    | some j => j.isNull

/-- Whether properties are selected. -/
def admits (s : Selection) (properties : Dict String Json) : Bool := s.holds properties.get?

end Selection

end FleetAtlas
