import GatewayPlan.Mapping.Set

/-!
# Arguments of the command line

A command and its options, each with one value: after an equals sign or as the next argument, which
then does not start with a dash unless it is one. An option is given once unless it makes a list.
-/

namespace GatewayPlan.CommandLine

structure CompileOptions where
  config : String
  apiKey : Option String
  output : Option String
  deriving DecidableEq, Repr

structure ParamsOptions where
  path : String
  queries : List String
  multis : List String
  headers : List String
  contexts : List String
  optionals : List String
  apiKeyHeader : String
  apiKey : Option String
  deriving DecidableEq, Repr

inductive Command where
  | version
  | compile (o : CompileOptions)
  | params (o : ParamsOptions)
  deriving DecidableEq, Repr

abbrev Given := List (String × String)

def optionName? (arg : String) : Option (String × Option String) :=
  match arg.toList with
  | '-' :: '-' :: body =>
    let name := String.ofList (body.takeWhile (· ≠ '='))
    match body.dropWhile (· ≠ '=') with
    | _ :: value => some (name, some (String.ofList value))
    | [] => some (name, none)
  | _ => none

def isDashed (arg : String) : Bool :=
  arg.toList.head? = some '-' && arg ≠ "-"

/-- Reads options that are among the known ones. Nothing may follow a double dash. -/
def readOptions (known : List String) : List String → Option Given
  | [] => some []
  | arg :: rest =>
    if arg = "--" then (if rest.isEmpty then some [] else none)
    else match optionName? arg with
      | none => none
      | some (name, some value) =>
        if name ∈ known then (readOptions known rest).map ((name, value) :: ·) else none
      | some (name, none) =>
        match rest with
        | [] => none
        | value :: rest' =>
          if name ∈ known && !isDashed value then
            (readOptions known rest').map ((name, value) :: ·)
          else none

namespace Given

def all (g : Given) (name : String) : List String :=
  (g.filter (·.1 = name)).map (·.2)

/-- The value of an option that may be given once. None if it is given more often. -/
def once? (g : Given) (name : String) : Option (Option String) :=
  match g.all name with
  | [] => some none
  | [value] => some (some value)
  | _ => none

/-- The path of a file, which is not empty. -/
def file? (g : Given) (name : String) : Option (Option String) :=
  (g.once? name).filter (· ≠ some "")

end Given

def CompileOptions.ofArguments? (args : List String) : Option CompileOptions := do
  let given ← readOptions ["config", "api-key", "output"] args
  let config ← (← given.file? "config")
  let apiKey ← given.once? "api-key"
  let output ← given.file? "output"
  pure { config, apiKey, output }

def ParamsOptions.ofArguments? (args : List String) : Option ParamsOptions := do
  let given ← readOptions
    ["path", "query", "multi", "header", "context", "optional", "api-key-header", "api-key"] args
  let path ← (← given.once? "path")
  let apiKeyHeader ← given.once? "api-key-header"
  let apiKey ← given.once? "api-key"
  pure
    { path
      queries := given.all "query"
      multis := given.all "multi"
      headers := given.all "header"
      contexts := given.all "context"
      optionals := given.all "optional"
      apiKeyHeader := apiKeyHeader.getD LiteralHeader.defaultHeader
      apiKey }

def Command.ofArguments? : List String → Option Command
  | "compile" :: rest => (CompileOptions.ofArguments? rest).map compile
  | "params" :: rest => (ParamsOptions.ofArguments? rest).map params
  | arg :: _ => if arg = "--version" || "-V".isPrefixOf arg then some version else none
  | [] => none

end GatewayPlan.CommandLine
