import GatewayPlan.Tree.Node

/-!
# Writing JSON

A tree as JSON text, on one line or with each item on a line of its own, two spaces deeper than the
list or map around it.
-/

namespace GatewayPlan.Json

open GatewayPlan.Tree

def hexDigit (n : Nat) : Char :=
  if n < 10 then Char.ofNat (48 + n) else Char.ofNat (87 + n)

def escapedChar (c : Char) : String :=
  if c = '"' then "\\\""
  else if c = '\\' then "\\\\"
  else if c = '\n' then "\\n"
  else if c = '\r' then "\\r"
  else if c = '\t' then "\\t"
  else if c = '\x08' then "\\b"
  else if c = '\x0c' then "\\f"
  else if c.toNat < 0x20 then
    "\\u00" ++ String.ofList [hexDigit (c.toNat / 16), hexDigit (c.toNat % 16)]
  else c.toString

def quote (s : String) : String :=
  s.toList.foldl (fun text c => text ++ escapedChar c) "\"" ++ "\""

/-- How the parts of a list or map are set: what stands before the first item, between two items,
before the closing mark, and after a key. -/
structure Layout where
  first : Nat → String
  between : Nat → String
  last : Nat → String
  colon : String

def indent (depth : Nat) : String :=
  String.ofList ('\n' :: List.replicate (2 * depth) ' ')

def Layout.line : Layout := ⟨fun _ => "", fun _ => ",", fun _ => "", ":"⟩

def Layout.block : Layout :=
  ⟨fun depth => indent (depth + 1), fun depth => "," ++ indent (depth + 1), indent, ": "⟩

def keyText : Node → String
  | .text s => quote s
  | .plain s => quote s
  | .num n => quote n.text
  | _ => quote ""

mutual
/-- Places without a value are null. -/
def write (l : Layout) (depth : Nat) : Node → String
  | .null => "null"
  | .bool b => if b then "true" else "false"
  | .num n => n.text
  | .text s => quote s
  | .plain s => quote s
  | .seq [] => "[]"
  | .seq (n :: rest) =>
    "[" ++ l.first depth ++ write l (depth + 1) n ++ writeItems l depth rest ++ l.last depth ++ "]"
  | .map [] => "\x7b\x7d"
  | .map ((k, v) :: rest) =>
    "\x7b" ++ l.first depth ++ keyText k ++ l.colon ++ write l (depth + 1) v ++
      writeEntries l depth rest ++ l.last depth ++ "\x7d"
  | .tagged _ n => write l depth n
  | .broken => "null"
  | .unreadable => "null"

def writeItems (l : Layout) (depth : Nat) : List Node → String
  | [] => ""
  | n :: rest => l.between depth ++ write l (depth + 1) n ++ writeItems l depth rest

def writeEntries (l : Layout) (depth : Nat) : List (Node × Node) → String
  | [] => ""
  | (k, v) :: rest =>
    l.between depth ++ keyText k ++ l.colon ++ write l (depth + 1) v ++ writeEntries l depth rest
end

def line (n : Node) : String :=
  write .line 0 n

def block (n : Node) : String :=
  write .block 0 n

end GatewayPlan.Json
