import GatewayPlan.Mapping.Set
import GatewayPlan.Route.Integration

/-!
# API plans

The methods of an API together with what holds for the API as a whole: the origin that browsers may
call it from, the keys that callers present, and their usage plans.
-/

namespace GatewayPlan

/-- A steady rate of requests and how many may come at once. -/
structure Throttle where
  rateLimit : UInt32
  burstLimit : UInt32
  deriving DecidableEq, Repr

def Throttle.standard : Throttle := ⟨500, 750⟩

/-- A key that callers present. Without a throttle of its own it has the standard one. -/
structure ApiKey where
  name : String
  throttle : Option Throttle
  deriving DecidableEq, Repr

structure UsagePlan where
  name : String
  apiKeyName : String
  stage : String
  throttle : Throttle
  deriving DecidableEq, Repr

structure CorsPreflight where
  allowOrigins : List String
  allowHeaders : List String
  deriving DecidableEq, Repr

inductive ErrorClass where
  | client
  | server
  deriving DecidableEq, Repr

def ErrorClass.name : ErrorClass → String
  | client => "DEFAULT_4XX"
  | server => "DEFAULT_5XX"

/-- Headers on the errors that the gateway itself answers with. -/
structure GatewayResponse where
  errors : ErrorClass
  headers : Keyed String
  deriving DecidableEq, Repr

structure ApiPlan where
  name : String
  stage : String
  apiKeyRequired : Bool
  corsPreflight : Option CorsPreflight
  gatewayResponses : List GatewayResponse
  usagePlans : List UsagePlan
  methods : List MethodPlan
  deriving DecidableEq, Repr

def CorsPreflight.ofOrigin (origin : String) : CorsPreflight :=
  ⟨[origin], ["Authorization,Content-Type"]⟩

namespace GatewayResponse

def corsHeaders (origin : String) : Keyed String :=
  .ofList [("Access-Control-Allow-Origin", Mapping.constant origin),
    ("Access-Control-Allow-Headers", Mapping.constant
      "Content-Type,X-Amz-Date,Authorization,X-Api-Key,X-Amz-Security-Token"),
    ("Access-Control-Allow-Methods", Mapping.constant "OPTIONS")]

/-- Both classes of errors, readable from an origin. -/
def ofOrigin (origin : String) : List GatewayResponse :=
  [⟨.client, corsHeaders origin⟩, ⟨.server, corsHeaders origin⟩]

end GatewayResponse

namespace UsagePlan

def ofKey (stage : String) (key : ApiKey) : UsagePlan :=
  ⟨key.name, key.name, stage, key.throttle.getD .standard⟩

/-- One plan for each key. Names are neither blank nor repeated; `seen` holds the names so far. -/
def ofKeysAfter (stage : String) (seen : List String) : List ApiKey → Except Error (List UsagePlan)
  | [] => .ok []
  | key :: rest =>
    if Text.isBlank key.name then .error (.config .blankKeyName)
    else if key.name ∈ seen then .error (.config (.repeatedKeyName key.name))
    else do
      let plans ← ofKeysAfter stage (key.name :: seen) rest
      pure (ofKey stage key :: plans)

def ofKeys (keys : List ApiKey) (stage : String) : Except Error (List UsagePlan) :=
  ofKeysAfter stage [] keys

end UsagePlan

def ApiPlan.ofMethods (name stage : String) (origin : Option String) (keys : List ApiKey)
    (methods : List MethodPlan) : Except Error ApiPlan :=
  if origin.any Text.isBlank then .error (.config .blankOrigin)
  else do
    let usagePlans ← UsagePlan.ofKeys keys stage
    pure {
      name, stage, usagePlans, methods
      apiKeyRequired := !keys.isEmpty
      corsPreflight := origin.map .ofOrigin
      gatewayResponses := (origin.map GatewayResponse.ofOrigin).getD [] }

end GatewayPlan
