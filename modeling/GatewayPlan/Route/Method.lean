import GatewayPlan.Error

/-!
# Request methods
-/

namespace GatewayPlan

inductive Method where
  | get
  | post
  | put
  | patch
  | delete
  | head
  | options
  /-- Whatever method a request has. -/
  | any
  deriving DecidableEq, Repr

namespace Method

def name : Method → String
  | get => "GET"
  | post => "POST"
  | put => "PUT"
  | patch => "PATCH"
  | delete => "DELETE"
  | head => "HEAD"
  | options => "OPTIONS"
  | any => "ANY"

def all : List Method :=
  [get, post, put, patch, delete, head, options, any]

/-- The method with a name, in any ASCII case. An asterisk is any method. -/
def ofText? (s : String) : Option Method :=
  let upper := s.map Char.toUpper
  if upper = "*" then some any else all.find? fun m => m.name = upper

theorem ofText?_name (m : Method) : ofText? m.name = some m := by cases m <;> decide +kernel

def ofText (s : String) : Except Error Method :=
  match ofText? s with
  | some m => .ok m
  | none => .error (.config (.unknownMethod s))

end Method

end GatewayPlan
