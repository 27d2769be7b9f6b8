import GatewayPlan.Mapping.Compile
import GatewayPlan.Route.Integration
import GatewayPlan.Template
import GatewayPlan.Url.Basic

/-!
# Planning routes

A route hands its requests to a function, to the upstream service, or to a bucket. A proxy route
maps its declared parameters and those of its path. A bucket route maps those of its path only, and
its object key may use no others.
-/

namespace GatewayPlan

inductive Target where
  | function (name : String)
  | proxy (parameters : List Parameter)
  /-- `key` is a template over the placeholders of the route's path. -/
  | bucket (name key role : String)
  deriving DecidableEq, Repr

structure Route where
  path : String
  method : Method
  target : Target
  deriving DecidableEq, Repr

/-- What all routes of one API share. -/
structure Settings where
  /-- The path under which proxy routes are mounted. -/
  proxyRoot : String
  /-- The base that route paths are appended to. -/
  upstream : Url
  literal : LiteralHeader
  authorizer : Bool
  apiKeyRequired : Bool
  deriving DecidableEq, Repr

namespace Settings

def defaultProxyRoot : String := "/api"

def authorization (s : Settings) : Authorization :=
  if s.authorizer then .custom else .none

/-- Where a path is found upstream. Placeholders stay as they are. -/
def uri (s : Settings) (path : String) : String :=
  Template.trimSlashes s.upstream.text ++ path

end Settings

namespace Route

def bucketService : String := "s3"

def planned (s : Settings) (r : Route) (resourcePath : String) (integration : Integration)
    (responses : List MethodResponse) : MethodPlan :=
  ⟨resourcePath, r.method, s.authorization, s.apiKeyRequired, integration, responses⟩

def planProxy (s : Settings) (r : Route) (parameters : List Parameter) : Logged MethodPlan := do
  let merged ← Template.merge r.path parameters
  let mappings ← Mapping.compile merged s.literal
  if mappings.templates.isSome && !s.authorizer then
    .fail (.config (.unprotected r.method.name r.path))
  else
    .tell [.plannedProxy r.method.name r.path merged.length]
    pure (planned s r (Template.join s.proxyRoot r.path)
      (.http ⟨s.uri r.path, r.method, .whenNoMatch, mappings, IntegrationResponse.passed⟩)
      MethodResponse.passed)

/-- The first name of an object key that the route does not capture, or what is wrong with the
key. -/
def checkKey (path key : String) (captured : List Parameter) : Except Error Unit :=
  if !Template.isRooted key then .error (.config (.unrootedKey key path))
  else do
    let used ← Template.pathParameters key
    match used.find? fun p => !captured.any (·.name = p.name) with
    | some p => .error (.config (.uncaptured key p.name path))
    | none => pure ()

def planBucket (s : Settings) (r : Route) (name key role : String) : Logged MethodPlan := do
  let captured ← .quiet (Template.pathParameters r.path)
  .quiet (checkKey r.path key captured)
  let mappings ← Mapping.compile captured none
  .tell [.plannedBucket r.method.name r.path (name ++ key)]
  pure (planned s r r.path
    (.service ⟨bucketService, r.method, name ++ key, role, .whenNoTemplates, mappings,
      IntegrationResponse.ofBucket⟩)
    MethodResponse.ofBucket)

def plan (s : Settings) (r : Route) : Logged MethodPlan :=
  if !Template.isRooted r.path then .fail (.config (.unrootedRoute r.path))
  else match r.target with
    | .function name => pure (planned s r r.path (.function name) [])
    | .proxy parameters => planProxy s r parameters
    | .bucket name key role => planBucket s r name key role

end Route

end GatewayPlan
