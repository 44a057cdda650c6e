import FleetAtlas.Proofs.Storage.Agreement

/-!
# The record of an entity

* `Record.ofJson?_toJson`: the JSON form of an entity is that of a record, its own;
* `Record.Envelops r e`: the record has the uid, the kind, the links and the properties of the entity, and no others;
* `Entity.record_faithful`: **the record of an entity envelops it and reads as that entity**, also without its `null`
  properties.

Only a node to be scheduled on and a prerelease are left out when there is none; times that are not known are `null`.
-/

namespace FleetAtlas

/-- The record says of the entity what it is, and nothing else. -/
structure Record.Envelops {f : Family} (r : Record) (e : Entity f) : Prop where
  uid : r.uid = e.uid.text
  kind : r.kind = e.kind
  links : ∀ name uid, r.links.get? name = some uid ↔ (name, uid) ∈ Links.fields f e.links
  properties : ∀ name, r.properties.get? name = Json.lookup name (Properties.fields f e.properties)

theorem Entity.envelops_toRecord {f : Family} (e : Entity f) : e.toRecord.Envelops e where
  uid := rfl
  kind := rfl
  links _ _ := Dict.get?_ofList (Links.nodup_fields f e.links)
  properties := Json.get?_ofList (Properties.nodup_fields f e.properties)

/-- **The JSON form of an entity is that of its record.** -/
theorem Record.ofJson?_toJson {f : Family} (e : Entity f) : ofJson? e.toJson = some e.toRecord := by
  have hproperties : Json.dict? (.ofDict e.toRecord.properties) = some e.toRecord.properties :=
    congrArg some (Dict.ofList_toList _)
  have hlinks : Json.entries? Json.str? (linksJson e.toRecord.links) = some e.toRecord.links := entries?_linksJson _
  unfold ofJson?
  show (do
    let properties ← Json.dict? (.ofDict e.toRecord.properties)
    let links ← Json.entries? Json.str? (linksJson e.toRecord.links)
    return ({ uid := e.uid.text, kind := e.kind, properties, links } : Record)) = some e.toRecord
  rw [hproperties, hlinks]
  rfl

/-! ### What may be absent -/

section

open Entity

/-- An instance that is on no node has no link to one. -/
theorem DeploymentInstance.get?_scheduledOn (i : DeploymentInstance) :
    i.toRecord.links.get? "scheduledOn" = i.scheduledOn.map Uid.text := by
  obtain ⟨uid, kind, properties, of, artifact, runtime, scheduledOn⟩ := i
  refine Option.ext fun node => ((envelops_toRecord _).links "scheduledOn" node).trans ?_
  cases scheduledOn <;> simp [Links.fields, DeploymentInstance.scheduledOn, eq_comm]

theorem DeploymentInstance.get?_stopped (i : DeploymentInstance) :
    i.toRecord.properties.get? "stopped" = some (.ofTime? i.info.stopped) :=
  i.envelops_toRecord.properties "stopped"

theorem ArtifactVersionProperties.get?_released (v : Entity .artifactVersion) :
    v.toRecord.properties.get? "released" = some (.ofTime? (released v.properties)) :=
  v.envelops_toRecord.properties "released"

/-- A version that is no prerelease has no property that says so. -/
theorem RuntimeVersionProperties.get?_prerelease (v : Entity .runtimeVersion) :
    v.toRecord.properties.get? "prerelease" = (prerelease v.properties).map .str := by
  rw [v.envelops_toRecord.properties]
  obtain ⟨uid, kind, ⟨major, minor, patch, prerelease, released⟩, links⟩ := v
  cases prerelease <;> rfl

theorem RuntimeVersionProperties.get?_released (v : Entity .runtimeVersion) :
    v.toRecord.properties.get? "released" = some (.ofTime? (released v.properties)) := by
  rw [v.envelops_toRecord.properties]
  obtain ⟨uid, kind, ⟨major, minor, patch, prerelease, released⟩, links⟩ := v
  -- it stands after the prerelease, if there is one
  cases prerelease <;> rfl

end

/-- **The record of an entity says what the entity is and reads as that entity**, also without its `null` properties. -/
theorem Entity.record_faithful :
    (∀ (f : Family) (e : Entity f), Record.ofJson? e.toJson = some e.toRecord ∧ e.toRecord.Envelops e ∧
      ofRecord? f e.toRecord = some e ∧
      ofRecord? f { e.toRecord with properties := e.toRecord.properties.filter fun _ j => !j.isNull } = some e) ∧
    (∀ i : DeploymentInstance, i.toRecord.links.get? "scheduledOn" = i.scheduledOn.map Uid.text ∧
      i.toRecord.properties.get? "stopped" = some (.ofTime? i.info.stopped)) ∧
    (∀ v : Entity .runtimeVersion,
      v.toRecord.properties.get? "prerelease" = (RuntimeVersionProperties.prerelease v.properties).map .str ∧
      v.toRecord.properties.get? "released" = some (.ofTime? (RuntimeVersionProperties.released v.properties))) ∧
    ∀ v : Entity .artifactVersion,
      v.toRecord.properties.get? "released" = some (.ofTime? (ArtifactVersionProperties.released v.properties)) := by
  refine ⟨fun f e => ⟨Record.ofJson?_toJson e, e.envelops_toRecord, e.ofRecord?_toRecord, ?_⟩,
    fun i => ⟨i.get?_scheduledOn, i.get?_stopped⟩,
    fun v => ⟨RuntimeVersionProperties.get?_prerelease v, RuntimeVersionProperties.get?_released v⟩,
    ArtifactVersionProperties.get?_released⟩
  -- this is its record in a graph
  exact e.ofRecord?_toNode

end FleetAtlas
