import GatewayPlan.Text.Quoted
import GatewayPlan.Tree.Plain

/-!
# What can be wrong with a tree

A tree is faulty where its text is, and where it does not have the shape that its reader asks for.
Only the first fault in reading order is reported.
-/

namespace GatewayPlan.Tree

/-- What stood where something else was expected. -/
inductive Found where
  | null
  | bool (b : Bool)
  | num (n : Numeral)
  | text (s : String)
  | seq
  | map
  deriving DecidableEq, Repr

def Found.describe : Found → String
  | null => "null"
  | bool b => "boolean `" ++ (if b then "true" else "false") ++ "`"
  | num (.real bits) => "floating point `" ++ (Numeral.real bits).text ++ "`"
  | num n => "integer `" ++ n.text ++ "`"
  | text s => "string " ++ Text.quoted s
  | seq => "sequence"
  | map => "map"

inductive Mismatch where
  | missingField (name : String)
  | duplicateField (name : String)
  | unknownVariant (name : String) (known : List String)
  | invalidType (found : Found) (expected : String)
  | invalidValue (found : Found) (expected : String)
  | invalidLength (length : Nat) (expected : String)
  /-- The shape is right, and the content fails a check of its own. -/
  | refused (reason : String)
  deriving DecidableEq, Repr

/-- The names to choose from, the way a sentence lists them. -/
def alternatives : List String → String
  | [] => "there are no variants"
  | [a] => "expected `" ++ a ++ "`"
  | [a, b] => "expected `" ++ a ++ "` or `" ++ b ++ "`"
  | names => "expected one of " ++ ", ".intercalate (names.map fun a => "`" ++ a ++ "`")

def Mismatch.message : Mismatch → String
  | missingField name => "missing field `" ++ name ++ "`"
  | duplicateField name => "duplicate field `" ++ name ++ "`"
  | unknownVariant name known => "unknown variant `" ++ name ++ "`, " ++ alternatives known
  | invalidType found expected => "invalid type: " ++ found.describe ++ ", expected " ++ expected
  | invalidValue found expected => "invalid value: " ++ found.describe ++ ", expected " ++ expected
  | invalidLength length expected =>
    "invalid length " ++ toString length ++ ", expected " ++ expected
  | refused reason => reason

inductive Fault where
  | malformed
  | mismatch (m : Mismatch)
  deriving DecidableEq, Repr

namespace Node

def untagged : Node → Node
  | tagged _ content => content
  | n => n

/-- The node as a value of a type of its own. -/
def scalar (n : Node) : Node :=
  match n.untagged with
  | plain s => Plain.resolve s
  | m => m

def found? : Node → Option Found
  | null => some .null
  | bool b => some (.bool b)
  | num n => some (.num n)
  | text s => some (.text s)
  | plain s => some (.text s)
  | seq _ => some .seq
  | map _ => some .map
  | tagged _ content => content.found?
  | broken => none
  | unreadable => none

/-- The fault of finding this node where `expected` should be. -/
def unexpected (n : Node) (expected : String) : Fault :=
  match n.found? with
  | some f => .mismatch (.invalidType f expected)
  | none => .malformed

end Node

end GatewayPlan.Tree
