import FleetAtlas.Storage.Store

/-!
# Settings of storage

* `StorageSettings`: what is known of the storage to use;
* `StorageSettings.or`: settings, completed by others;
* `StorageSettings.connect`: opens the storage that is set, which takes an engine that is compiled in: none is.
-/

namespace FleetAtlas

/-- What is known of the storage to use. -/
structure StorageSettings where
  mongodbConnection : Option String
  mongodbDatabase : Option String
  neo4jConnection : Option String
  neo4jUsername : Option String
  neo4jPassword : Option String
deriving DecidableEq

namespace StorageSettings

/-- Nothing is known. -/
def unset : StorageSettings := ⟨none, none, none, none, none⟩

instance : Inhabited StorageSettings := ⟨unset⟩

/-- What is set, and from the fallback what is not. -/
def or (s fallback : StorageSettings) : StorageSettings where
  mongodbConnection := s.mongodbConnection <|> fallback.mongodbConnection
  mongodbDatabase := s.mongodbDatabase <|> fallback.mongodbDatabase
  neo4jConnection := s.neo4jConnection <|> fallback.neo4jConnection
  neo4jUsername := s.neo4jUsername <|> fallback.neo4jUsername
  neo4jPassword := s.neo4jPassword <|> fallback.neo4jPassword

/-- Opens the storage that is set, a graph rather than documents. -/
def connect (s : StorageSettings) : Except StorageError Store :=
  if s.neo4jConnection.isSome then .error (.engineMissing "neo4j")
  else if s.mongodbConnection.isSome then .error (.engineMissing "mongodb")
  else .error .notConfigured

end StorageSettings

end FleetAtlas
