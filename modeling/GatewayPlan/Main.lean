import GatewayPlan.CommandLine.Run

/-!
# The program

Runs one command on the files of the machine. Standard output holds nothing but the result.
-/

namespace GatewayPlan

open CommandLine

def faultOf (e : IO.Error) : FileFault :=
  match e with
  | .noFileOrDirectory .. => .notFound
  | .inappropriateType _ 20 _ => .notDirectory
  | .inappropriateType _ 21 _ => .isDirectory
  | e => .other (toString e)

def answer {α : Type} (act : IO α) : IO (Except FileFault α) := do
  try
    return .ok (← act)
  catch e => return .error (faultOf e)

def machine : Files IO where
  read path := answer (IO.FS.readBinFile path)
  write path text := answer (IO.FS.writeFile path text)

def usage : String :=
  "Usage: gatemap compile --config FILE [--api-key KEY] [--output FILE]\n" ++
  "       gatemap params --path TEMPLATE [--query NAME] [--multi NAME] [--header NAME]\n" ++
  "           [--context NAME] [--optional NAME] [--api-key-header NAME] [--api-key KEY]\n" ++
  "       gatemap --version\n"

end GatewayPlan

open GatewayPlan CommandLine in
def main (args : List String) : IO UInt32 := do
  match Command.ofArguments? args with
  | none =>
    IO.eprint usage
    return 2
  | some command =>
    let outcome ← run machine (← IO.getEnv keyVariable) command
    for e in outcome.events do
      if e.level ≠ .debug then IO.eprintln (e.level.name ++ " " ++ e.message)
    match outcome.result with
    | .ok text =>
      IO.print text
      return 0
    | .error f =>
      IO.eprint f.text
      return 1
