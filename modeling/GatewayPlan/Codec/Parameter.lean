import GatewayPlan.Parameter.Catalog
import GatewayPlan.Tree.Fields

/-!
# Parameters as data

A parameter is required unless it says otherwise, and is checked like any other once it is read.
-/

namespace GatewayPlan

open GatewayPlan.Tree

def ParameterKind.codec : Codec ParameterKind :=
  .choice (ParameterKind.all.map fun k => (k.tag, k)) ParameterKind.tag

namespace Parameter

/-- A parameter before its name is checked. -/
structure Unchecked where
  kind : ParameterKind
  name : String
  required : Bool

def Unchecked.fields : Fields Unchecked Unchecked :=
  Unchecked.mk
    <$> .required "type" (·.kind) ParameterKind.codec
    <*> .required "name" (·.name) .string
    <*> .defaulted "required" (·.required) .bool true

def codec : Codec Parameter :=
  (Fields.record "struct RawDescriptor" Unchecked.fields).refine
    (fun p => ⟨p.kind, p.name, p.required⟩)
    (fun u => (named u.kind u.name u.required).mapError Error.message)

end Parameter

end GatewayPlan
