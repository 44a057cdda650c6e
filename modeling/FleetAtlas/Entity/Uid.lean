import FleetAtlas.Family

/-!
# Uids

* `Uid f`: the name of an entity of the family `f`, unique within it;
* `Uid.application`, …: how the uids of the families are composed, each from the uid of what it belongs to.
-/

namespace FleetAtlas

/-- The name of an entity of one family. -/
structure Uid (family : Family) where
  text : String
deriving DecidableEq, Inhabited, Repr

namespace Uid

/-- The uid of a part: the uid of the whole, a slash and the name of the part. -/
def within {f g : Family} (whole : Uid f) (part : String) : Uid g := ⟨whole.text ++ "/" ++ part⟩

/-- A cluster node goes by its name. -/
def node (name : String) : Uid .node := ⟨name⟩

/-- A customer goes by its tenant id. -/
def customer (id : String) : Uid .customer := ⟨id⟩

/-- `customer/application`. -/
def application (customerId id : String) : Uid .application := (customer customerId).within id

/-- `customer/application/environment`. -/
def environment (customerId applicationId name : String) : Uid .environment :=
  (application customerId applicationId).within name

/-- `customer/artifact`. -/
def artifact (customerId id : String) : Uid .artifact := (customer customerId).within id

/-- `customer/artifact/version`. -/
def artifactVersion (customerId artifactId name : String) : Uid .artifactVersion :=
  (artifact customerId artifactId).within name

/-- `major.minor.patch`, and `-prerelease` unless that is missing or empty; shared by every customer. -/
def runtimeVersion (major minor patch : UInt32) (prerelease : Option String) : Uid .runtimeVersion :=
  let numbers := Nat.repr major.toNat ++ "." ++ Nat.repr minor.toNat ++ "." ++ Nat.repr patch.toNat
  match prerelease with
  | none => ⟨numbers⟩
  | some text => if text = "" then ⟨numbers⟩ else ⟨numbers ++ "-" ++ text⟩

/-- `customer/application/environment/revision`. -/
def deployment (customerId applicationId environmentName revision : String) : Uid .deployment :=
  (environment customerId applicationId environmentName).within revision

/-- `customer/application/environment/revision/pod`. -/
def deploymentInstance (of : Uid .deployment) (podUid : String) : Uid .deploymentInstance := of.within podUid

/-- `customer/application/environment/artifact/hash`. -/
def artifactConfiguration (customerId applicationId environmentName artifactId hash : String) :
    Uid .artifactConfiguration :=
  ⟨(environment customerId applicationId environmentName).text ++ "/" ++ artifactId ++ "/" ++ hash⟩

/-- `customer/application/environment/artifact/hash`. -/
def runtimeConfiguration (customerId applicationId environmentName artifactId hash : String) :
    Uid .runtimeConfiguration :=
  ⟨(environment customerId applicationId environmentName).text ++ "/" ++ artifactId ++ "/" ++ hash⟩

/-- An event that the cluster reported, under the cluster's own uid. -/
def clusterEvent (id : String) : Uid .event := ⟨"kubernetes/" ++ id⟩

/-- The restarts of either the platform container or the customer containers of an instance. -/
def restarts (instanceUid : Uid .deploymentInstance) (platform : Bool) : Uid .event :=
  ⟨"restart/" ++ instanceUid.text ++ "/" ++ (if platform then "platform" else "customer")⟩

end Uid

end FleetAtlas
