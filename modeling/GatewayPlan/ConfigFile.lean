import GatewayPlan.Codec.Config
import GatewayPlan.Json.Document
import GatewayPlan.Json.Writer
import GatewayPlan.Template
import GatewayPlan.Yaml.Document
import GatewayPlan.Yaml.Writer

/-!
# Configuration files

A configuration is kept in a file as JSON if the name of the file ends in `.json`, and as YAML
otherwise. The same name decides for reading and for writing.
-/

namespace GatewayPlan

inductive FileFormat where
  | json
  | yaml
  deriving DecidableEq, Repr

namespace FileFormat

/-- The last component of a path, if it names a file. -/
def fileName? (path : String) : Option (List Char) :=
  let components := (Template.pieces path.toList).filter fun c => !c.isEmpty && c ≠ ['.']
  components.getLast?.filter (· ≠ ['.', '.'])

/-- What follows the last dot of a name, if something stands before it. -/
def extension? (name : List Char) : Option (List Char) :=
  match name.reverse.dropWhile (· ≠ '.') with
  | _ :: _ :: _ => some (name.reverse.takeWhile (· ≠ '.')).reverse
  | _ => none

def ofPath (path : String) : FileFormat :=
  if (fileName? path).bind extension? = some "json".toList then json else yaml

end FileFormat

namespace Config

def ofText (format : FileFormat) (text : String) : Except Error Config :=
  match format with
  | .json => (Json.decode codec text).mapError Error.json
  | .yaml => (Yaml.decode codec text).mapError fun _ => Error.yaml

def text (c : Config) : FileFormat → String
  | .json => Json.block (codec.encode c)
  | .yaml => Yaml.text (codec.encode c)

/-- The configuration in a file, given what the file system answers for its path. -/
def ofFile (path : String) (content : Except FileFault ByteArray) : Except Error Config := do
  let bytes ← content.mapError Error.io
  match String.fromUTF8? bytes with
  | some text => ofText (.ofPath path) text
  | none => throw (.io .notUtf8)

def fileText (path : String) (c : Config) : String :=
  c.text (.ofPath path)

end Config

end GatewayPlan
