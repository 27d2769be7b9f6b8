import GatewayPlan.Error
import GatewayPlan.Keyed
import GatewayPlan.Template

/-!
# Files

What the command line asks of a file system, and a file system of its own: one directory that holds
files and nothing else.
-/

namespace GatewayPlan.CommandLine

structure Files (m : Type → Type) where
  read : String → m (Except FileFault ByteArray)
  /-- Makes a text the whole content of a file. -/
  write : String → String → m (Except FileFault Unit)

/-- The files of a directory and their texts. -/
abbrev Directory := Keyed String

namespace Directory

/-- Where a relative path leads. -/
inductive Place where
  | self
  | file (name : String)
  /-- Below something that is not a directory, or would have to be one. -/
  | below (name : String)
  | outside
  deriving DecidableEq, Repr

def place (path : String) : Place :=
  let components := Template.pieces path.toList
  match components.dropWhile fun c => c = ['.'] with
  | [] => .self
  | [[]] => if components.length = 1 then .outside else .self
  | [] :: _ => if components.head? = some [] then .outside else .self
  | [name] => if name = ['.', '.'] then .outside else .file (String.ofList name)
  | name :: _ => if name = ['.', '.'] then .outside else .below (String.ofList name)

def read (d : Directory) (path : String) : Except FileFault ByteArray :=
  match place path with
  | .self => .error .isDirectory
  | .file name => ((d.get? name).map String.toUTF8).elim (.error .notFound) .ok
  | .below name => .error (if (d.get? name).isSome then .notDirectory else .notFound)
  | .outside => .error .notFound

def write (d : Directory) (path text : String) : Except FileFault Directory :=
  match place path with
  | .self => .error .isDirectory
  | .file name => .ok (d.insert name text)
  | .below name => .error (if (d.get? name).isSome then .notDirectory else .notFound)
  | .outside => .error .notFound

def files : Files (StateM Directory) where
  read path := return Directory.read (← get) path
  write path text := do
    match Directory.write (← get) path text with
    | .ok d =>
      set d
      return .ok ()
    | .error fault => return .error fault

end Directory

end GatewayPlan.CommandLine
