import FleetAtlas.Storage.Store

/-!
# Changes of a store

`Store.changesSince`: the records that are new or different, by family and uid.
-/

namespace FleetAtlas.Store

/-- The records of a family, none when they cannot be listed. -/
def records (s : Store) (f : Family) : List Record := (s.list f .all).toOption.getD []

/-- The records of a family that an earlier store did not have as they are. -/
def changesIn (s earlier : Store) (f : Family) : List Record :=
  let known := earlier.records f
  (s.records f).filter fun r => !known.contains r

/-- The records that an earlier store did not have as they are, by family and uid. -/
def changesSince (s earlier : Store) : List Record := Family.all.flatMap (s.changesIn earlier)

end FleetAtlas.Store
