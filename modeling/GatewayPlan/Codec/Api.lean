import GatewayPlan.Api
import GatewayPlan.Codec.Integration

/-!
# API plans as data
-/

namespace GatewayPlan

open GatewayPlan.Tree

def Throttle.fields : Fields Throttle Throttle :=
  Throttle.mk
    <$> .required "rateLimit" (·.rateLimit) .uint32 "rate_limit"
    <*> .required "burstLimit" (·.burstLimit) .uint32 "burst_limit"

def Throttle.codec : Codec Throttle :=
  Fields.record "struct Throttle" fields

def ApiKey.fields : Fields ApiKey ApiKey :=
  ApiKey.mk
    <$> .required "name" (·.name) .string
    <*> .optional "throttle" (·.throttle) Throttle.codec

def ApiKey.codec : Codec ApiKey :=
  Fields.record "struct ApiKey" fields

def UsagePlan.fields : Fields UsagePlan UsagePlan :=
  UsagePlan.mk
    <$> .required "name" (·.name) .string
    <*> .required "apiKeyName" (·.apiKeyName) .string
    <*> .required "stage" (·.stage) .string
    <*> .required "throttle" (·.throttle) Throttle.codec

def UsagePlan.codec : Codec UsagePlan :=
  Fields.record "struct UsagePlan" fields

def CorsPreflight.fields : Fields CorsPreflight CorsPreflight :=
  CorsPreflight.mk
    <$> .required "allowOrigins" (·.allowOrigins) (.list .string)
    <*> .required "allowHeaders" (·.allowHeaders) (.list .string)

def CorsPreflight.codec : Codec CorsPreflight :=
  Fields.record "struct CorsPreflight" fields

def ErrorClass.codec : Codec ErrorClass :=
  .choice [("DEFAULT_4XX", .client), ("DEFAULT_5XX", .server)] ErrorClass.name

def GatewayResponse.fields : Fields GatewayResponse GatewayResponse :=
  GatewayResponse.mk
    <$> .required "type" (·.errors) ErrorClass.codec
    <*> .required "responseHeaders" (·.headers) (.keyed .string)

def GatewayResponse.codec : Codec GatewayResponse :=
  Fields.record "struct GatewayResponse" fields

def ApiPlan.fields : Fields ApiPlan ApiPlan :=
  ApiPlan.mk
    <$> .required "name" (·.name) .string
    <*> .required "stage" (·.stage) .string
    <*> .required "apiKeyRequired" (·.apiKeyRequired) .bool
    <*> .optional "corsPreflight" (·.corsPreflight) CorsPreflight.codec
    <*> .many "gatewayResponses" (·.gatewayResponses) GatewayResponse.codec
    <*> .many "usagePlans" (·.usagePlans) UsagePlan.codec
    <*> .required "methods" (·.methods) MethodPlan.codec.list

def ApiPlan.codec : Codec ApiPlan :=
  Fields.record "struct ApiPlan" fields

end GatewayPlan
