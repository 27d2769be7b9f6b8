import GatewayPlan.Event
import GatewayPlan.Keyed
import GatewayPlan.Mapping.Key

/-!
# Mapping sets

What a gateway needs to know of a list of parameters: which ones the method request accepts, where
the integration request reads each from, and the body template that forwards context fields, which
plain mappings cannot reach.
-/

namespace GatewayPlan

/-- A header the integration request always carries with a constant value. -/
structure LiteralHeader where
  header : String
  value : String
  deriving DecidableEq, Repr

namespace LiteralHeader

def defaultHeader : String := "X-API-Key"

def apiKey (value : String) : LiteralHeader :=
  ⟨defaultHeader, value⟩

def key (l : LiteralHeader) : String :=
  Mapping.headerKey l.header

end LiteralHeader

structure MappingSet where
  accepted : Keyed Bool
  backend : Keyed String
  templates : Option (Keyed String)
  deriving DecidableEq, Repr

instance : Inhabited MappingSet := ⟨⟨.empty, .empty, none⟩⟩

namespace Mapping

def constant (value : String) : String :=
  "'" ++ value ++ "'"

/-- The accepted references, each with whether it is required. -/
def accepted (ps : List Parameter) : Keyed Bool :=
  .ofList (ps.filterMap fun p => p.declaredKey?.map (·, p.required))

/-- The forwarded references, each with the accepted one it reads. -/
def forwarded (ps : List Parameter) : Keyed String :=
  .ofList (ps.filterMap fun p => do
    let target ← p.forwardedKey?
    let declared ← p.declaredKey?
    pure (target, declared))

/-- The forwarded references with the literal header, which takes the place of a mapping to the
same key. -/
def backend (ps : List Parameter) (literal : LiteralHeader) : Keyed String :=
  (forwarded ps).insert literal.key (constant literal.value)

def overrideWarnings (ps : List Parameter) (literal : LiteralHeader) : List Event :=
  match (forwarded ps).get? literal.key with
  | some previous => [.overridden literal.key previous]
  | none => []

def templateContentType : String := "application/json"

/-- Hands the body on as it came. -/
def bodyLine : String := "$input.json(\"$\")"

def contextLine (name : String) : String :=
  "#set($context.requestOverride.header." ++ contextHeader name ++ " = $context.authorizer." ++
    name ++ ")"

/-- The body line, and one line for each context field. -/
def script (names : List String) : String :=
  names.foldl (fun text name => text ++ "\n" ++ contextLine name) bodyLine

def contextNames (ps : List Parameter) : List String :=
  (ps.filter Parameter.isContext).map Parameter.name

def templates (ps : List Parameter) : Option (Keyed String) :=
  match contextNames ps with
  | [] => none
  | names => some (.ofList [(templateContentType, script names)])

end Mapping

end GatewayPlan
