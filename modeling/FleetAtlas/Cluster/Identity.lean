import FleetAtlas.Cluster.Object
import FleetAtlas.Entity.Uid

/-!
# Where an object stands in the fleet

* `Tenancy`: the customer and the application that a namespace belongs to;
* `Identity`: the place of a microservice, read off annotations and labels;
* `Identity.deployment`, `Identity.instanceUid`: the uids that follow from it.

An object without these marks is not part of the fleet.
-/

namespace FleetAtlas

/-! ### Marks -/

def tenantIdAnnotation : String := "dolittle.io/tenant-id"
def applicationIdAnnotation : String := "dolittle.io/application-id"
def microserviceIdAnnotation : String := "dolittle.io/microservice-id"
def tenantLabel : String := "tenant"
def applicationLabel : String := "application"
def environmentLabel : String := "environment"
def microserviceLabel : String := "microservice"

/-- The annotation of a key. -/
def Metadata.annotation? (m : Metadata) (key : String) : Option String := m.annotations.get? key

/-- The label of a key. -/
def Metadata.label? (m : Metadata) (key : String) : Option String := m.labels.get? key

/-! ### Places -/

/-- The customer and the application that an object belongs to. -/
structure Tenancy where
  tenantId : String
  applicationId : String
deriving DecidableEq

/-- The tenancy that annotations state. -/
def Tenancy.ofMetadata? (m : Metadata) : Option Tenancy := do
  let tenantId ← m.annotation? tenantIdAnnotation
  let applicationId ← m.annotation? applicationIdAnnotation
  return { tenantId, applicationId }

/-- The place of a microservice. -/
structure Identity where
  tenantId : String
  applicationId : String
  environment : String
  microserviceId : String
deriving DecidableEq

namespace Identity

/-- The identity that annotations and labels state, all of it or none. -/
def ofMetadata? (m : Metadata) : Option Identity := do
  let tenancy ← Tenancy.ofMetadata? m
  let environment ← m.label? environmentLabel
  let microserviceId ← m.annotation? microserviceIdAnnotation
  return { tenantId := tenancy.tenantId, applicationId := tenancy.applicationId, environment, microserviceId }

/-- The deployment of a revision. -/
def deployment (i : Identity) (revision : String) : Uid .deployment :=
  .deployment i.tenantId i.applicationId i.environment revision

/-- The instance of a revision that a pod backs. -/
def instanceUid (i : Identity) (revision podUid : String) : Uid .deploymentInstance :=
  .deploymentInstance (i.deployment revision) podUid

end Identity

end FleetAtlas
