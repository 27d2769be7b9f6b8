import GatewayPlan.Mapping.Set
import GatewayPlan.Route.Method

/-!
# Integrations

What a gateway method does with a request, and how it answers.
-/

namespace GatewayPlan

inductive Authorization where
  | none
  | custom
  deriving DecidableEq, Repr

def Authorization.name : Authorization → String
  | none => "NONE"
  | custom => "CUSTOM"

/-- When a body passes through although no template fits its type. -/
inductive Passthrough where
  | whenNoMatch
  | whenNoTemplates
  deriving DecidableEq, Repr

def Passthrough.name : Passthrough → String
  | whenNoMatch => "WHEN_NO_MATCH"
  | whenNoTemplates => "WHEN_NO_TEMPLATES"

/-- An answer of the integration, chosen by a pattern on its status. -/
structure IntegrationResponse where
  status : String
  pattern : String
  parameters : Keyed String
  deriving DecidableEq, Repr

/-- An answer of the method, with the headers it declares. -/
structure MethodResponse where
  status : String
  parameters : Keyed Bool
  deriving DecidableEq, Repr

structure HttpIntegration where
  uri : String
  method : Method
  passthrough : Passthrough
  mappings : MappingSet
  responses : List IntegrationResponse
  deriving DecidableEq, Repr

structure ServiceIntegration where
  service : String
  method : Method
  /-- Bucket name and object key. -/
  path : String
  role : String
  passthrough : Passthrough
  mappings : MappingSet
  responses : List IntegrationResponse
  deriving DecidableEq, Repr

inductive Integration where
  | function (name : String)
  | http (h : HttpIntegration)
  | service (s : ServiceIntegration)
  deriving DecidableEq, Repr

def Integration.mappings? : Integration → Option MappingSet
  | function _ => none
  | http h => some h.mappings
  | service s => some s.mappings

/-- All it takes to create one gateway method. -/
structure MethodPlan where
  resourcePath : String
  method : Method
  authorization : Authorization
  apiKeyRequired : Bool
  integration : Integration
  responses : List MethodResponse
  deriving DecidableEq, Repr

namespace IntegrationResponse

/-- The statuses that pass through from an HTTP integration. -/
def passedStatuses : List Nat :=
  [200, 201, 202, 204, 400, 401, 403, 404, 405, 406, 408, 409, 412, 413, 422, 425, 428, 429, 500,
    501, 502, 503, 504]

/-- One response for each status that passes through. -/
def passed : List IntegrationResponse :=
  passedStatuses.map fun code => ⟨toString code, toString code, .empty⟩

def copiedHeaders (names : List String) : Keyed String :=
  .ofList (names.map fun name =>
    ("method.response.header." ++ name, "integration.response.header." ++ name))

/-- The responses of a bucket. Redirects count as client errors, which are all answered with 400
but for 404. -/
def ofBucket : List IntegrationResponse :=
  [⟨"200", "200", copiedHeaders ["Content-Type", "Content-Length"]⟩,
    ⟨"400", "3??", copiedHeaders ["Content-Type"]⟩,
    ⟨"404", "404", copiedHeaders ["Content-Type"]⟩,
    ⟨"400", "4??", copiedHeaders ["Content-Type"]⟩,
    ⟨"500", "5??", copiedHeaders ["Content-Type"]⟩]

end IntegrationResponse

namespace MethodResponse

def passed : List MethodResponse :=
  IntegrationResponse.passedStatuses.map fun code => ⟨toString code, .empty⟩

def declaredHeaders (names : List String) : Keyed Bool :=
  .ofList (names.map fun name => ("method.response.header." ++ name, true))

def ofBucket : List MethodResponse :=
  [⟨"200", declaredHeaders ["Content-Type", "Content-Length"]⟩,
    ⟨"400", declaredHeaders ["Content-Type"]⟩,
    ⟨"404", declaredHeaders ["Content-Type"]⟩,
    ⟨"500", declaredHeaders ["Content-Type"]⟩]

end MethodResponse

end GatewayPlan
