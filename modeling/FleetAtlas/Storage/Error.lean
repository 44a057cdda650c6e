/-!
# What can go wrong in storage

`StorageError` names the causes, `StorageError.message?` gives their texts.
-/

namespace FleetAtlas

/-- Why storage did not do what it was asked to. -/
inductive StorageError where
  /-- What is stored does not decode; no text says more. -/
  | malformed
  | notConfigured
  | engineMissing (engine : String)
  | invalidIdentifier (text : String)
  | other (text : String)
deriving DecidableEq, Repr

namespace StorageError

/-- The text of an error, if it has one. -/
def message? : StorageError → Option String
  | malformed => none
  | notConfigured => some "No storage configured"
  | engineMissing engine => some ("Storage engine " ++ engine ++ " is not compiled in")
  | invalidIdentifier text => some ("Invalid graph identifier `" ++ text ++ "`")
  | other text => some ("Error: " ++ text)

end StorageError

end FleetAtlas
