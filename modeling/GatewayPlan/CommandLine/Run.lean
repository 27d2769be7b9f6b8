import GatewayPlan.CommandLine.Arguments
import GatewayPlan.CommandLine.Files
import GatewayPlan.ConfigFile
import GatewayPlan.Parameter.Catalog

/-!
# Running commands

What a command does, over any file system. The key for the upstream is settled first: the option
counts before the environment, an empty text included. A file is written only once everything else
has succeeded.
-/

namespace GatewayPlan.CommandLine

/-- What went wrong, from the outermost step inwards. -/
structure Failure where
  step : String
  causes : List String
  deriving DecidableEq, Repr

namespace Failure

def ofError (e : Error) : Failure :=
  ⟨e.message, e.cause?.toList⟩

/-- A step that failed with an error. -/
def within (step : String) (e : Error) : Failure :=
  ⟨step, e.message :: e.cause?.toList⟩

/-- The lines of a cause under a label, all but the first under blanks. -/
def block (label : String) (cause : String) : String :=
  let rest := String.ofList ('\n' :: List.replicate label.length ' ')
  label ++ rest.intercalate (cause.splitOn "\n")

def numbered : Nat → List String → List String
  | _, [] => []
  | n, cause :: rest => block ("    " ++ toString n ++ ": ") cause :: numbered (n + 1) rest

def text (f : Failure) : String :=
  let head := "Error: " ++ f.step ++ "\n"
  match f.causes with
  | [] => head
  | [cause] => head ++ "\nCaused by:\n" ++ block "    " cause ++ "\n"
  | causes => head ++ "\nCaused by:\n" ++ "\n".intercalate (numbered 0 causes) ++ "\n"

end Failure

/-- How a command ended: the text it printed or its failure, and the events told on the way. -/
structure Outcome where
  events : List Event
  result : Except Failure String

def version : String := "gatemap 0.1.0\n"

def keyVariable : String := "GATEMAP_API_KEY"

/-- The key for the upstream, from the option or else from the environment. -/
def keyOf (option environment : Option String) : Except Failure String :=
  match option <|> environment with
  | some key => .ok key
  | none => .error ⟨"No --api-key given and $" ++ keyVariable ++ " is not set",
      ["environment variable not found"]⟩

variable {m : Type → Type} [Monad m]

def compile (files : Files m) (environment : Option String) (o : CompileOptions) : m Outcome := do
  match keyOf o.apiKey environment with
  | .error f => return ⟨[], .error f⟩
  | .ok key =>
    match Config.ofFile o.config (← files.read o.config) with
    | .error e => return ⟨[], .error (.within ("Failed to load config " ++ o.config) e)⟩
    | .ok config =>
      let planned := config.plan key
      match planned.result with
      | .error e => return ⟨planned.log, .error (.within "Failed to plan API" e)⟩
      | .ok plan =>
        let text := Json.block (ApiPlan.codec.encode plan)
        match o.output with
        | none => return ⟨planned.log, .ok (text ++ "\n")⟩
        | some path =>
          match ← files.write path text with
          | .ok () => return ⟨planned.log, .ok ""⟩
          | .error fault =>
            return ⟨planned.log, .error ⟨"Failed to write " ++ path, [fault.message]⟩⟩

/-- The parameters of a route: those declared by kind and those of the path, some relaxed. -/
def paramsOf (o : ParamsOptions) : Except Failure (List Event × List Parameter) := do
  let declared ← (Parameter.declared o.queries o.multis o.headers o.contexts).mapError .ofError
  let merged := Template.merge o.path declared
  match Parameter.relaxNamed (← merged.result.mapError .ofError) o.optionals with
  | .ok ps => pure (merged.log, ps)
  | .error unknown =>
    throw ⟨"--optional " ++ unknown ++ " does not name any parameter of this route", []⟩

def params (environment : Option String) (o : ParamsOptions) : Outcome :=
  match keyOf o.apiKey environment with
  | .error f => ⟨[], .error f⟩
  | .ok key =>
    match paramsOf o with
    | .error f => ⟨[], .error f⟩
    | .ok (log, ps) =>
      let compiled := Mapping.compile ps (some ⟨o.apiKeyHeader, key⟩)
      ⟨log ++ compiled.log, match compiled.result with
        | .ok set => .ok (Json.block (MappingSet.codec.encode set) ++ "\n")
        | .error e => .error (.ofError e)⟩

def run (files : Files m) (environment : Option String) : Command → m Outcome
  | .version => return ⟨[], .ok version⟩
  | .compile o => compile files environment o
  | .params o => return params environment o

end GatewayPlan.CommandLine
