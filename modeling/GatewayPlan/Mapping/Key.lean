import GatewayPlan.Parameter.Basic

/-!
# Mapping keys

The references under which a parameter is declared on the method request and written on the
integration request. A multi-value query parameter is declared as a plain one. A context field has
no reference of its own and ends up in a header.
-/

namespace GatewayPlan.Mapping

def methodRequest : String := "method.request"

def integrationRequest : String := "integration.request"

def key (request scope name : String) : String :=
  request ++ "." ++ scope ++ "." ++ name

def headerKey (name : String) : String :=
  key integrationRequest "header" name

/-- The header that carries a context field. -/
def contextHeader (name : String) : String :=
  "authorizer-" ++ name

/-- ASCII letters in lower case, all else as it is. -/
def folded (s : String) : String :=
  s.map Char.toLower

end GatewayPlan.Mapping

namespace GatewayPlan

open Mapping

namespace ParameterKind

def declaredScope? : ParameterKind → Option String
  | query => some "querystring"
  | multiValueQuery => some "querystring"
  | path => some "path"
  | header => some "header"
  | context => none

def forwardedScope? : ParameterKind → Option String
  | context => none
  | kind => some kind.tag

/-- Keys that name a header are compared without regard to ASCII case. -/
def comparable : ParameterKind → String → String
  | header, key => folded key
  | context, key => folded key
  | _, key => key

end ParameterKind

namespace Parameter

/-- The reference on the method request. -/
def declaredKey? (p : Parameter) : Option String :=
  p.kind.declaredScope?.map fun scope => key methodRequest scope p.name

/-- The reference on the integration request that a mapping writes. -/
def forwardedKey? (p : Parameter) : Option String :=
  p.kind.forwardedScope?.map fun scope => key integrationRequest scope p.name

/-- The reference on the integration request that is written in the end, by mapping or template. -/
def targetKey (p : Parameter) : String :=
  match p.kind with
  | .context => headerKey (contextHeader p.name)
  | kind => key integrationRequest kind.tag p.name

end Parameter

end GatewayPlan
