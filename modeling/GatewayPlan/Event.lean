import GatewayPlan.Parameter.Basic

/-!
# Events

What planning tells its log, and at which level.
-/

namespace GatewayPlan

inductive Level where
  | warn
  | info
  | debug
  deriving DecidableEq, Repr

namespace Level

def name : Level → String
  | warn => "WARN"
  | info => "INFO"
  | debug => "DEBUG"

end Level

inductive Event where
  /-- A repeated parameter was dropped that disagrees with the one kept. -/
  | dropped (p : Parameter) (keptRequired : Bool)
  /-- The literal header took the place of a forwarded one. -/
  | overridden (key previous : String)
  | compiled (parameters accepted backend : Nat) (withTemplate : Bool)
  | plannedProxy (method path : String) (parameters : Nat)
  | plannedBucket (method path object : String)
  | plannedApi (methods : Nat) (name stage : String)
  deriving DecidableEq, Repr

namespace Event

def level : Event → Level
  | dropped .. => .warn
  | overridden .. => .warn
  | compiled .. => .debug
  | plannedProxy .. => .debug
  | plannedBucket .. => .debug
  | plannedApi .. => .info

def boolText (b : Bool) : String :=
  if b then "true" else "false"

def message : Event → String
  | dropped p kept =>
    "Duplicate parameter " ++ p.label ++ " with required=" ++ boolText p.required ++
      " dropped; keeping required=" ++ boolText kept
  | overridden key previous => "Literal header " ++ key ++ " replaces mapping from " ++ previous
  | compiled n accepted backend withTemplate =>
    "Compiled " ++ toString n ++ " descriptors into " ++ toString accepted ++ " accepted, " ++
      toString backend ++ " backend mappings" ++
      if withTemplate then " and a request template" else ""
  | plannedProxy method path n =>
    "Planned proxy " ++ method ++ " " ++ path ++ " with " ++ toString n ++ " parameters"
  | plannedBucket method path object =>
    "Planned bucket " ++ method ++ " " ++ path ++ " on " ++ object
  | plannedApi n name stage =>
    "Planned " ++ toString n ++ " methods for API '" ++ name ++ "' (" ++ stage ++ ")"

end Event

end GatewayPlan
