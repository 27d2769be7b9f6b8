import GatewayPlan.Mapping.Set
import GatewayPlan.Tree.Fields

/-!
# Mapping sets as data
-/

namespace GatewayPlan

open GatewayPlan.Tree

def LiteralHeader.fields : Fields LiteralHeader LiteralHeader :=
  LiteralHeader.mk
    <$> .required "header" (·.header) .string
    <*> .required "value" (·.value) .string

def LiteralHeader.codec : Codec LiteralHeader :=
  Fields.record "struct LiteralHeader" fields

def MappingSet.fields : Fields MappingSet MappingSet :=
  MappingSet.mk
    <$> .required "accepted" (·.accepted) (.keyed .bool)
    <*> .required "backend" (·.backend) (.keyed .string)
    <*> .optionalInMap "templates" (·.templates) (.keyed .string)

def MappingSet.codec : Codec MappingSet :=
  Fields.record "struct CompiledMappingSet" fields

end GatewayPlan
