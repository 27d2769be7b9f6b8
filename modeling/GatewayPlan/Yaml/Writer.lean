import GatewayPlan.Tree.Node
import GatewayPlan.Yaml.Style

/-!
# Writing YAML

A tree as a YAML text of blocks. The entries of a map stand two columns deeper than the map around
them, the items of a list in the column of the map around it.
-/

namespace GatewayPlan.Yaml

open GatewayPlan.Tree

def keyOf : Node → String
  | .text s => keyText s
  | .plain s => keyText s
  | .num n => n.text
  | .bool b => if b then "true" else "false"
  | _ => "null"

/-- A scalar or something empty, up to the end of its line. -/
def leaf (indent : Nat) : Node → String
  | .bool b => (if b then " true" else " false") ++ "\n"
  | .num n => " " ++ n.text ++ "\n"
  | .text s => " " ++ textLine (indent + 2) s
  | .plain s => " " ++ s ++ "\n"
  | .seq _ => " []\n"
  | .map _ => " \x7b\x7d\n"
  | _ => " null\n"

mutual

/-- What follows a key in a map in column `indent`. -/
def value (indent : Nat) : Node → String
  | .seq (n :: rest) => "\n" ++ pad indent ++ "-" ++ item indent n ++ items indent rest
  | .map ((k, v) :: rest) =>
    "\n" ++ pad (indent + 2) ++ keyOf k ++ ":" ++ value (indent + 2) v ++ entries (indent + 2) rest
  | .tagged tag n => " " ++ tag ++ value indent n
  | n => leaf indent n

/-- What follows the dash of an item of a list in column `indent`. -/
def item (indent : Nat) : Node → String
  | .seq (n :: rest) => " -" ++ item (indent + 2) n ++ items (indent + 2) rest
  | .map ((k, v) :: rest) =>
    " " ++ keyOf k ++ ":" ++ value (indent + 2) v ++ entries (indent + 2) rest
  | .tagged tag n => " " ++ tag ++ value indent n
  | n => leaf indent n

def items (indent : Nat) : List Node → String
  | [] => ""
  | n :: rest => pad indent ++ "-" ++ item indent n ++ items indent rest

def entries (indent : Nat) : List (Node × Node) → String
  | [] => ""
  | (k, v) :: rest => pad indent ++ keyOf k ++ ":" ++ value indent v ++ entries indent rest

end

/-- A document of its own. -/
def text : Node → String
  | .map (e :: rest) => entries 0 (e :: rest)
  | .seq (n :: rest) => items 0 (n :: rest)
  | n => ((leaf 0 n).drop 1).toString

end GatewayPlan.Yaml
