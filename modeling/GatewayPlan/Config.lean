import GatewayPlan.Api
import GatewayPlan.Route.Plan

/-!
# Configurations

One API as it is configured. Planning it first expands every route into one route for each of its
methods, and only then plans them, so a route that cannot be expanded fails before any other is
planned.
-/

namespace GatewayPlan

structure BucketConfig where
  name : String
  objectKey : String
  role : String
  deriving DecidableEq, Repr

structure RouteConfig where
  path : String
  methods : List Method
  function : Option String
  bucket : Option BucketConfig
  parameters : List Parameter
  deriving DecidableEq, Repr

structure UpstreamConfig where
  baseUrl : Url
  apiKeyHeader : String
  deriving DecidableEq, Repr

structure Config where
  name : String
  stage : String
  proxyRoot : String
  upstream : UpstreamConfig
  authorizer : Bool
  corsAllowOrigin : Option String
  apiKeys : List ApiKey
  routes : List RouteConfig
  deriving DecidableEq, Repr

namespace RouteConfig

def target (r : RouteConfig) : Except Error Target :=
  match r.function, r.bucket with
  | some _, some _ => .error (.config (.twoTargets r.path))
  | some name, none =>
    if r.parameters.isEmpty then .ok (.function name)
    else .error (.config (.idleParameters r.path))
  | none, some b =>
    if r.parameters.isEmpty then .ok (.bucket b.name b.objectKey b.role)
    else .error (.config (.idleParameters r.path))
  | none, none => .ok (.proxy r.parameters)

/-- One route for each method. -/
def expand (r : RouteConfig) : Except Error (List Route) :=
  if r.methods.isEmpty then .error (.config (.noMethods r.path))
  else do
    let target ← r.target
    pure (r.methods.map fun method => ⟨r.path, method, target⟩)

end RouteConfig

namespace Config

def defaultStage : String := "prod"

/-- An API without routes. -/
def ofUpstream (name : String) (baseUrl : Url) : Config where
  name
  stage := defaultStage
  proxyRoot := Settings.defaultProxyRoot
  upstream := ⟨baseUrl, LiteralHeader.defaultHeader⟩
  authorizer := false
  corsAllowOrigin := none
  apiKeys := []
  routes := []

/-- The settings of all routes, with the key that the upstream asks for. -/
def settings (c : Config) (apiKey : String) : Settings where
  proxyRoot := c.proxyRoot
  upstream := c.upstream.baseUrl
  literal := ⟨c.upstream.apiKeyHeader, apiKey⟩
  authorizer := c.authorizer
  apiKeyRequired := !c.apiKeys.isEmpty

def expandRoutes (c : Config) : Except Error (List Route) := do
  let routes ← c.routes.mapM RouteConfig.expand
  pure routes.flatten

def planRoutes (c : Config) (apiKey : String) : Logged (List MethodPlan) := do
  let routes ← .quiet c.expandRoutes
  let plans ← routes.mapM (Route.plan (c.settings apiKey))
  .tell [.plannedApi plans.length c.name c.stage]
  pure plans

def plan (c : Config) (apiKey : String) : Logged ApiPlan := do
  let methods ← c.planRoutes apiKey
  .quiet (ApiPlan.ofMethods c.name c.stage c.corsAllowOrigin c.apiKeys methods)

end Config

end GatewayPlan
