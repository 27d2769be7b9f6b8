import GatewayPlan.Json.Token
import GatewayPlan.Tree.Codec

/-!
# JSON documents

The tree of a JSON text, built from its tokens with the open lists and maps on a stack. A token out
of place ends the tree there.
-/

namespace GatewayPlan.Json

open GatewayPlan.Tree

/-- An open list or map, its items last first. -/
inductive Frame where
  | seq (items : List Node)
  | map (entries : List (Node × Node)) (key : Node)

/-- What may come next. -/
inductive Expected where
  | value
  | valueOrClose
  | key
  | keyOrClose
  | colon
  | commaOrClose
  deriving DecidableEq

inductive State where
  | reading (stack : List Frame) (expected : Expected)
  /-- The tree is complete. -/
  | complete (n : Node)
  /-- Something follows the complete tree. -/
  | followed (n : Node)
  /-- The text is not well formed beyond this tree. -/
  | stopped (n : Node)

namespace State

/-- Closes all frames over a tree that ends in the innermost one. -/
def wrap (n : Node) : List Frame → Node
  | [] => n
  | .seq items :: rest => wrap (.seq (items.reverse ++ [n])) rest
  | .map entries key :: rest => wrap (.map (entries.reverse ++ [(key, n)])) rest

def stop (stack : List Frame) (expected : Expected) : State :=
  match stack with
  | [] => .stopped .broken
  | .seq items :: rest => .stopped (wrap (.seq (items.reverse ++ [.broken])) rest)
  | .map entries key :: rest =>
    let key := if expected = .colon || expected = .value then key else .broken
    .stopped (wrap (.map (entries.reverse ++ [(key, .broken)])) rest)

/-- Lists and maps inside this many others are not read. -/
def depthLimit : Nat := 127

/-- A complete value in its place. -/
def accept (n : Node) : List Frame → State
  | [] => .complete n
  | .seq items :: rest => .reading (.seq (n :: items) :: rest) .commaOrClose
  | .map entries key :: rest => .reading (.map ((key, n) :: entries) key :: rest) .commaOrClose

def close (n : Node) (outer : List Frame) : State :=
  accept (if depthLimit ≤ outer.length then .unreadable else n) outer

def openValue (stack : List Frame) (expected : Expected) : Token → State
  | .string s => accept (Token.text s) stack
  | .leaf n => accept n stack
  | .mark '[' => .reading (.seq [] :: stack) .valueOrClose
  | .mark '\x7b' => .reading (.map [] .broken :: stack) .keyOrClose
  | _ => stop stack expected

def readKey (stack : List Frame) (expected : Expected) (t : Token) : State :=
  match t, stack with
  | .string s, .map entries _ :: rest => .reading (.map entries (Token.text s) :: rest) .colon
  | _, _ => stop stack expected

def closeFrame (stack : List Frame) (expected : Expected) (c : Char) : State :=
  match stack with
  | .seq items :: rest =>
    if c = ']' then close (.seq items.reverse) rest else stop stack expected
  | .map entries _ :: rest =>
    if c = '\x7d' then close (.map entries.reverse) rest else stop stack expected
  | [] => stop stack expected

def afterItem (stack : List Frame) (t : Token) : State :=
  match t, stack with
  | .mark ',', .seq _ :: _ => .reading stack .value
  | .mark ',', .map .. :: _ => .reading stack .key
  | .mark c, _ => closeFrame stack .commaOrClose c
  | _, _ => stop stack .commaOrClose

def step : State → Token → State
  | .complete n, _ => .followed n
  | .reading stack .value, t => openValue stack .value t
  | .reading stack .valueOrClose, .mark ']' => closeFrame stack .valueOrClose ']'
  | .reading stack .valueOrClose, t => openValue stack .value t
  | .reading stack .keyOrClose, .mark '\x7d' => closeFrame stack .keyOrClose '\x7d'
  | .reading stack .keyOrClose, t => readKey stack .keyOrClose t
  | .reading stack .key, t => readKey stack .key t
  | .reading stack .colon, .mark ':' => .reading stack .value
  | .reading stack .colon, _ => stop stack .colon
  | .reading stack .commaOrClose, t => afterItem stack t
  | s, _ => s

end State

/-- The tree of a text, and whether the text ends where its tree is complete. -/
structure Document where
  root : Node
  ended : Bool

def Document.ofText (s : String) : Document :=
  match (tokens s).foldl State.step (.reading [] .value) with
  | .reading stack expected =>
    match State.stop stack expected with
    | .stopped n => ⟨n, true⟩
    | _ => ⟨.broken, true⟩
  | .complete n => ⟨n, true⟩
  | .followed n => ⟨n, false⟩
  | .stopped n => ⟨n, true⟩

/-- The value that a JSON text stands for. -/
def decode {α : Type} (c : Codec α) (s : String) : Except Fault α := do
  let d := Document.ofText s
  let x ← c.decode .typedText d.root
  if d.ended then pure x else throw .malformed

end GatewayPlan.Json
