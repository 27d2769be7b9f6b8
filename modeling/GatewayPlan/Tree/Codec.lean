import GatewayPlan.Keyed
import GatewayPlan.Tree.Fault

/-!
# Codecs

How a value is written as a tree and read from one. Trees from different sources are read alike
but for a few points, all of them about input that fits badly: which faults count as faults of the
text, and how they are worded.
-/

namespace GatewayPlan.Tree

/-- Where a tree comes from. -/
inductive Source where
  /-- A text with a type of value at every scalar, read as it goes. -/
  | typedText
  /-- A value that was read before. -/
  | value
  /-- The fields of a tagged record, held back until the tag is known. -/
  | heldBack
  /-- A text whose scalars may stand without quotes. -/
  | plainText
  deriving DecidableEq, Repr

structure Codec (α : Type) where
  encode : α → Node
  decode : Source → Node → Except Fault α

namespace Codec

variable {α β : Type}

def stringExpecting (expected : String) : Codec String where
  encode := .text
  decode _ n := match n.untagged with
    | .text s => .ok s
    | .plain s => .ok s
    | m => .error (m.unexpected expected)

def string : Codec String :=
  stringExpecting "a string"

def bool : Codec Bool where
  encode := .bool
  decode _ n := match n.scalar with
    | .bool b => .ok b
    | m => .error (m.unexpected "a boolean")

def uint32 : Codec UInt32 where
  encode n := .num (.natural n.toNat)
  decode _ n := match n.scalar with
    | .num (.natural k) =>
      if k < UInt32.size then .ok (UInt32.ofNat k)
      else .error (.mismatch (.invalidValue (.num (.natural k)) "u32"))
    | .num (.negative k) => .error (.mismatch (.invalidValue (.num (.negative k)) "u32"))
    | m => .error (m.unexpected "u32")

def null : Codec Unit where
  encode _ := .null
  decode src n := match n.scalar with
    | .null => .ok ()
    | .map [] => if src = .heldBack then .ok () else .error (Node.unexpected (.map []) "unit")
    | m => .error (m.unexpected "unit")

/-- An empty scalar without quotes is also an empty list. -/
def list (c : Codec α) : Codec (List α) where
  encode xs := .seq (xs.map c.encode)
  decode src n := match n.untagged with
    | .seq items => items.mapM (c.decode src)
    | .plain "" => .ok []
    | m => .error (m.unexpected "a sequence")

def keyOf (n : Node) : Except Fault String :=
  match n.untagged with
  | .text s => .ok s
  | .plain s => .ok s
  | _ => .error .malformed

/-- Of a key that stands twice, the last value counts. -/
def keyed (c : Codec α) : Codec (Keyed α) where
  encode m := .map (m.entries.map fun e => (.text e.1, c.encode e.2))
  decode src n := match n.untagged with
    | .map entries => do
      let read ← entries.mapM fun e => do
        let key ← keyOf e.1
        let x ← c.decode src e.2
        pure (key, x)
      pure (Keyed.ofList read)
    | .plain "" => .ok .empty
    | m => .error (m.unexpected "a map")

def option (c : Codec α) : Codec (Option α) where
  encode
    | none => .null
    | some x => c.encode x
  decode src n := match n with
    | .null => .ok none
    | .plain s => if Plain.isNull s then .ok none else (c.decode src n).map some
    | .tagged tag (.plain s) =>
      if tag ≠ Node.nullTag then (c.decode src n).map some
      else if s ≠ "" && Plain.isNull s then .ok none
      else .error (.mismatch (.invalidValue (.text s) "null"))
    | _ => (c.decode src n).map some

def refine (c : Codec β) (write : α → β) (read : β → Except String α) : Codec α where
  encode x := c.encode (write x)
  decode src n := do
    match read (← c.decode src n) with
    | .ok x => pure x
    | .error reason => throw (.mismatch (.refused reason))

section Choice

variable (table : List (String × α))

def pick (name : String) : Except Fault α :=
  match table.lookup name with
  | some x => .ok x
  | none => .error (.mismatch (.unknownVariant name (table.map (·.1))))

/-- The choice that a key means: by name, or by its place if the key is a number. -/
def pickKey (key : Node) : Except Fault α :=
  match key with
  | .num (.natural i) =>
    match table[i]? with
    | some (_, x) => .ok x
    | none => .error .malformed
  | _ => do pick table (← keyOf key)

/-- The one entry of a map that names a choice, with nothing to say about it. -/
def pickEntry (src : Source) : List (Node × Node) → Except Fault α
  | [(k, v)] => do
    let x ← pickKey table k
    null.decode src v
    pure x
  | entries =>
    if src ≠ .typedText then .error (.mismatch (.invalidValue .map "map with a single key"))
    else match entries with
      | (k, v) :: _ => do
        let _ ← pickKey table k
        null.decode src v
        throw .malformed
      | [] => throw .malformed

def pickUntagged (src : Source) (n : Node) : Except Fault α :=
  match n with
  | .text s => pick table s
  | .plain s => pick table s
  | .map entries =>
    if src = .plainText then .error (n.unexpected "a tag") else pickEntry table src entries
  | _ =>
    if src = .typedText then .error .malformed else .error (n.unexpected "string or map")

/-- The name of a choice stands for it, and so does a tag of that name. -/
def choice (name : α → String) : Codec α where
  encode x := .text (name x)
  decode src n := match n with
    | .tagged tag content =>
      match Node.localTag? tag with
      | some label => do
        let x ← pick table label
        null.decode src content
        pure x
      | none => pickUntagged table src content
    | _ => pickUntagged table src n

end Choice

end Codec

end GatewayPlan.Tree
