import GatewayPlan.Codec.Mapping
import GatewayPlan.Route.Integration

/-!
# Integrations as data

An integration names its kind in the field `type`, which may stand anywhere in the record: the
other fields are held back until the kind is known. The mapping set has no record of its own, its
fields stand among those of the integration.
-/

namespace GatewayPlan

open GatewayPlan.Tree

def Method.codec : Codec Method :=
  .choice (Method.all.map fun m => (m.name, m)) Method.name

def Authorization.codec : Codec Authorization :=
  .choice [("NONE", .none), ("CUSTOM", .custom)] Authorization.name

def Passthrough.codec : Codec Passthrough :=
  .choice [("WHEN_NO_MATCH", .whenNoMatch), ("WHEN_NO_TEMPLATES", .whenNoTemplates)]
    Passthrough.name

def IntegrationResponse.fields : Fields IntegrationResponse IntegrationResponse :=
  IntegrationResponse.mk
    <$> .required "statusCode" (·.status) .string
    <*> .required "selectionPattern" (·.pattern) .string
    <*> .keyed "responseParameters" (·.parameters) .string

def IntegrationResponse.codec : Codec IntegrationResponse :=
  Fields.record "struct IntegrationResponse" fields

def MethodResponse.fields : Fields MethodResponse MethodResponse :=
  MethodResponse.mk
    <$> .required "statusCode" (·.status) .string
    <*> .keyed "responseParameters" (·.parameters) .bool

def MethodResponse.codec : Codec MethodResponse :=
  Fields.record "struct MethodResponse" fields

namespace HttpIntegration

/-- The fields before the mapping set. -/
def head : Fields HttpIntegration (String × Method × Passthrough) :=
  (·, ·, ·)
    <$> .required "uri" (·.uri) .string
    <*> .required "httpMethod" (·.method) Method.codec
    <*> .required "passthroughBehavior" (·.passthrough) Passthrough.codec

/-- The fields after the mapping set. -/
def tail : Fields HttpIntegration (List IntegrationResponse) :=
  .required "integrationResponses" (·.responses) IntegrationResponse.codec.list

def write (h : HttpIntegration) : List (String × Node) :=
  head.write h ++ MappingSet.fields.write h.mappings ++ tail.write h

def ofEntries (entries : List (Node × Node)) : Except Fault HttpIntegration := do
  let own ← (Prod.mk <$> head <*> tail).ofEntries .heldBack entries
  let mappings ← MappingSet.fields.ofEntries .heldBack entries
  let ((uri, method, passthrough), responses) := own
  pure { uri, method, passthrough, mappings, responses }

end HttpIntegration

namespace ServiceIntegration

def head : Fields ServiceIntegration (String × Method × String × String × Passthrough) :=
  (·, ·, ·, ·, ·)
    <$> .required "service" (·.service) .string
    <*> .required "httpMethod" (·.method) Method.codec
    <*> .required "path" (·.path) .string
    <*> .required "credentialsRole" (·.role) .string
    <*> .required "passthroughBehavior" (·.passthrough) Passthrough.codec

def tail : Fields ServiceIntegration (List IntegrationResponse) :=
  .required "integrationResponses" (·.responses) IntegrationResponse.codec.list

def write (s : ServiceIntegration) : List (String × Node) :=
  head.write s ++ MappingSet.fields.write s.mappings ++ tail.write s

def ofEntries (entries : List (Node × Node)) : Except Fault ServiceIntegration := do
  let own ← (Prod.mk <$> head <*> tail).ofEntries .heldBack entries
  let mappings ← MappingSet.fields.ofEntries .heldBack entries
  let ((service, method, path, role, passthrough), responses) := own
  pure { service, method, path, role, passthrough, mappings, responses }

end ServiceIntegration

namespace Integration

inductive Kind where
  | function
  | http
  | service
  deriving DecidableEq, Repr

def Kind.table : List (String × Kind) :=
  [("FUNCTION", .function), ("HTTP", .http), ("AWS", .service)]

def functionFields : Fields String String :=
  .required "functionName" id .string

def encode : Integration → Node
  | function name => .fields (("type", .text "FUNCTION") :: functionFields.write name)
  | http h => .fields (("type", .text "HTTP") :: h.write)
  | service s => .fields (("type", .text "AWS") :: s.write)

def kindOf (n : Node) : Except Fault Kind :=
  match n.untagged with
  | .text s => Codec.pick Kind.table s
  | .plain s => Codec.pick Kind.table s
  | m => .error (m.unexpected "variant identifier")

def settle (n : Node) : Except Fault Node :=
  match n.settled? with
  | some m => .ok m
  | none => .error .malformed

/-- The kind of the record and its other fields, all read to their ends. -/
def holdBack (kind : Option Kind) (held : List (Node × Node)) :
    List (Node × Node) → Except Fault (Kind × List (Node × Node))
  | [] =>
    match kind with
    | some k => .ok (k, held)
    | none => .error (.mismatch (.missingField "type"))
  | (key, v) :: rest => do
    match ← settle key with
    | .text "type" =>
      if kind.isSome then throw (.mismatch (.duplicateField "type"))
      else holdBack (some (← kindOf v)) held rest
    | key => holdBack kind (held ++ [(key, ← settle v)]) rest

def isNumbered : Node × Node → Bool
  | (.num (.natural _), _) => true
  | _ => false

/-- Fields among which those of a mapping set stand have no places. -/
def ofKind (entries : List (Node × Node)) : Kind → Except Fault Integration
  | .function => (functionFields.ofEntries .heldBack entries).map function
  | .http => (HttpIntegration.ofEntries (entries.filter (!isNumbered ·))).map http
  | .service => (ServiceIntegration.ofEntries (entries.filter (!isNumbered ·))).map service

/-- Only an integration without a mapping set can be read from a list. -/
def ofItems : List Node → Except Fault Integration
  | [] => .error (.mismatch (.missingField "type"))
  | tag :: items => do
    let kind ← kindOf tag
    let held ← items.mapM settle
    match kind with
    | .function =>
      (functionFields.ofItems "struct variant Integration::Function" .heldBack held).map function
    | .http => throw ((Node.seq held).unexpected "struct variant Integration::Http")
    | .service => throw ((Node.seq held).unexpected "struct variant Integration::Aws")

def codec : Codec Integration where
  encode := encode
  decode _ n := match n.general with
    | .map entries => do
      let (kind, held) ← holdBack none [] entries
      ofKind held kind
    | .seq items => ofItems items
    | .plain s => .error ((Plain.resolve s).unexpected "internally tagged enum Integration")
    | m => .error (m.unexpected "internally tagged enum Integration")

end Integration

def MethodPlan.fields : Fields MethodPlan MethodPlan :=
  MethodPlan.mk
    <$> .required "resourcePath" (·.resourcePath) .string
    <*> .required "httpMethod" (·.method) Method.codec
    <*> .required "authorizationType" (·.authorization) Authorization.codec
    <*> .required "apiKeyRequired" (·.apiKeyRequired) .bool
    <*> .required "integration" (·.integration) Integration.codec
    <*> .many "methodResponses" (·.responses) MethodResponse.codec

def MethodPlan.codec : Codec MethodPlan :=
  Fields.record "struct IntegrationPlan" fields

end GatewayPlan
