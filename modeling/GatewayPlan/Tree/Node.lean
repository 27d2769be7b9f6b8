import GatewayPlan.Tree.Numeral

/-!
# Data trees

What a data file says, before it is read as anything in particular. A tree is kept also when its
text breaks off or goes wrong: the place is `broken`, and nothing follows it. A part that is well
formed and still stands for no value, such as half of a surrogate pair, is `unreadable`: it may be
skipped but not read.
-/

namespace GatewayPlan.Tree

inductive Node where
  | null
  | bool (b : Bool)
  | num (n : Numeral)
  | text (s : String)
  /-- A scalar without quotes, whose type is left to the reader. -/
  | plain (s : String)
  | seq (items : List Node)
  | map (entries : List (Node × Node))
  /-- A tag of the document's own starts with an exclamation mark. -/
  | tagged (tag : String) (content : Node)
  | broken
  | unreadable
  deriving Inhabited, Repr

namespace Node

mutual
/-- Well formed to the end. -/
def intact : Node → Bool
  | seq items => intactItems items
  | map entries => intactEntries entries
  | tagged _ content => content.intact
  | broken => false
  | _ => true

def intactItems : List Node → Bool
  | [] => true
  | n :: rest => n.intact && intactItems rest

def intactEntries : List (Node × Node) → Bool
  | [] => true
  | (k, v) :: rest => k.intact && v.intact && intactEntries rest
end

mutual
/-- The tree as deep as it can be read: lists and maps inside `depth` others are unreadable. -/
def limited (depth : Nat) : Node → Node
  | seq items =>
    match depth with
    | 0 => unreadable
    | depth + 1 => seq (limitedItems depth items)
  | map entries =>
    match depth with
    | 0 => unreadable
    | depth + 1 => map (limitedEntries depth entries)
  | tagged tag content => tagged tag (limited depth content)
  | n => n

def limitedItems (depth : Nat) : List Node → List Node
  | [] => []
  | n :: rest => limited depth n :: limitedItems depth rest

def limitedEntries (depth : Nat) : List (Node × Node) → List (Node × Node)
  | [] => []
  | (k, v) :: rest => (limited depth k, limited depth v) :: limitedEntries depth rest
end

/-- The name of a tag of the document's own. -/
def localTag? (tag : String) : Option String :=
  match tag.toList with
  | '!' :: name => some (String.ofList name)
  | _ => none

/-- The node without a tag that is not of the document's own. -/
def general : Node → Node
  | tagged tag content => if (localTag? tag).isSome then tagged tag content else content
  | n => n

def coreTag (type : String) : String := "tag:yaml.org,2002:" ++ type

def nullTag : String := coreTag "null"

/-- The entries of a record, under their names. -/
def fields (entries : List (String × Node)) : Node :=
  map (entries.map fun e => (text e.1, e.2))

end Node

end GatewayPlan.Tree
