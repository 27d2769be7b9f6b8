import GatewayPlan.Codec.Api
import GatewayPlan.Codec.Parameter
import GatewayPlan.Config
import GatewayPlan.Url.Parser

/-!
# Configurations as data

The methods of a route are one name or a list of names, in any case, and are written as a list.
-/

namespace GatewayPlan

open GatewayPlan.Tree

def Url.read (s : String) : Except String Url :=
  (ofText s).mapError fun fault => fault.message ++ ": " ++ Text.quoted s

def Url.codec : Codec Url :=
  (Codec.stringExpecting "a string representing an URL").refine Url.text Url.read

namespace Method

def readNames : List Node → Except String (List Method)
  | [] => .ok []
  | .text s :: rest => do
    let m ← (ofText s).mapError Error.message
    let ms ← readNames rest
    pure (m :: ms)
  | _ :: _ => .error "Expected string or array of strings"

/-- One name or a list of names. -/
def readSettled : Node → Except String (List Method)
  | .text s => readNames [.text s]
  | .seq items => readNames items
  | _ => .error "Expected string or array of strings"

def namesCodec : Codec (List Method) where
  encode ms := .seq (ms.map fun m => .text m.name)
  decode _ n := match n.settled? with
    | none => .error .malformed
    | some m => (readSettled m).mapError fun reason => .mismatch (.refused reason)

end Method

def BucketConfig.fields : Fields BucketConfig BucketConfig :=
  BucketConfig.mk
    <$> .required "name" (·.name) .string
    <*> .required "object_key" (·.objectKey) .string
    <*> .required "credentials_role" (·.role) .string

def BucketConfig.codec : Codec BucketConfig :=
  Fields.record "struct BucketConfig" fields

def RouteConfig.fields : Fields RouteConfig RouteConfig :=
  RouteConfig.mk
    <$> .required "path" (·.path) .string
    <*> .required "methods" (·.methods) Method.namesCodec
    <*> .optional "function" (·.function) .string
    <*> .optional "bucket" (·.bucket) BucketConfig.codec
    <*> .many "parameters" (·.parameters) Parameter.codec

def RouteConfig.codec : Codec RouteConfig :=
  Fields.record "struct RouteConfig" fields

def UpstreamConfig.fields : Fields UpstreamConfig UpstreamConfig :=
  UpstreamConfig.mk
    <$> .required "base_url" (·.baseUrl) Url.codec
    <*> .defaulted "api_key_header" (·.apiKeyHeader) .string LiteralHeader.defaultHeader

def UpstreamConfig.codec : Codec UpstreamConfig :=
  Fields.record "struct UpstreamConfig" fields

def Config.fields : Fields Config Config :=
  Config.mk
    <$> .required "name" (·.name) .string
    <*> .defaulted "stage" (·.stage) .string defaultStage
    <*> .defaulted "proxy_root" (·.proxyRoot) .string Settings.defaultProxyRoot
    <*> .required "upstream" (·.upstream) UpstreamConfig.codec
    <*> .defaulted "authorizer" (·.authorizer) .bool false
    <*> .optional "cors_allow_origin" (·.corsAllowOrigin) .string
    <*> .many "api_keys" (·.apiKeys) ApiKey.codec
    <*> .defaulted "routes" (·.routes) RouteConfig.codec.list []

def Config.codec : Codec Config :=
  Fields.record "struct Config" fields

end GatewayPlan
