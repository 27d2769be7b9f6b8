import GatewayPlan.Text.Blank

/-!
# Parameters

One request parameter of a route: where it is read from, what it is called, and whether the gateway
insists on it. A name is never blank.
-/

namespace GatewayPlan

/-- Where a parameter is read from, and therefore which mapping rule applies. -/
inductive ParameterKind where
  | query
  | multiValueQuery
  | path
  | header
  /-- A field that the authorizer hands on, forwarded as an `authorizer-<name>` header. -/
  | context
  deriving DecidableEq, Repr

namespace ParameterKind

def tag : ParameterKind → String
  | query => "querystring"
  | multiValueQuery => "multivaluequerystring"
  | path => "path"
  | header => "header"
  | context => "context-to-header"

def all : List ParameterKind :=
  [query, multiValueQuery, path, header, context]

theorem mem_all (k : ParameterKind) : k ∈ all := by cases k <;> decide

theorem tag_injective : Function.Injective tag := by
  intro a b h
  cases a <;> cases b <;> first | rfl | exact absurd h (by decide)

end ParameterKind

structure Parameter where
  kind : ParameterKind
  name : String
  required : Bool
  name_not_blank : Text.isBlank name = false
  deriving DecidableEq, Repr

namespace Parameter

abbrev Identity := ParameterKind × String

/-- What two parameters share to be the same one. -/
def identity (p : Parameter) : Identity :=
  (p.kind, p.name)

def isContext (p : Parameter) : Bool :=
  p.kind = .context

/-- The same parameter, which the gateway does not insist on. -/
def relaxed (p : Parameter) : Parameter :=
  { p with required := false }

/-- Kind and name, with a question mark on a parameter that may be left out. -/
def label (p : Parameter) : String :=
  p.kind.tag ++ ":" ++ p.name ++ if p.required then "" else "?"

end Parameter

end GatewayPlan
