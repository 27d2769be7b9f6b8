import GatewayPlan.Tree.Codec

/-!
# Records

The fields of a record, each declared once for writing and for reading. A record is written as a
map in the order of its declaration. It is read from a map in any order, where unknown names are
skipped and a name that stands twice is a fault, or from a list in the order of its declaration,
where fields at the end may be left out if they have a default.
-/

namespace GatewayPlan.Tree

/-- A field as a reader meets it. -/
structure Slot where
  name : String
  alias? : Option String
  check : Source → Node → Except Fault Unit

def Slot.answersTo (s : Slot) (name : String) : Bool :=
  s.name = name || s.alias? = some name

/-- The fields that were met, under their declared names. -/
structure Met where
  source : Source
  fields : List (String × Node)
  /-- The fault of a field that has to be there and is not. -/
  absent : String → Fault
  /-- Read from a list. -/
  positional : Bool

def Met.find? (m : Met) (name : String) : Option Node :=
  m.fields.lookup name

/-- Fields written from a `ρ` and read into an `α`. -/
structure Fields (ρ α : Type) where
  slots : List Slot
  write : ρ → List (String × Node)
  build : Met → Except Fault α

namespace Fields

variable {ρ α β γ : Type}

instance : Functor (Fields ρ) where
  map f x := ⟨x.slots, x.write, fun m => (x.build m).map f⟩

instance : Applicative (Fields ρ) where
  pure a := ⟨[], fun _ => [], fun _ => .ok a⟩
  seq f x :=
    let y := x ()
    { slots := f.slots ++ y.slots
      write := fun r => f.write r ++ y.write r
      build := fun m => do
        let g ← f.build m
        let a ← y.build m
        pure (g a) }

def slot (name : String) (c : Codec β) (alias? : Option String) : Slot :=
  ⟨name, alias?, fun src n => (c.decode src n).map fun _ => ()⟩

/-- A field that is always there. -/
def required (name : String) (get : ρ → β) (c : Codec β) (alias? : Option String := none) :
    Fields ρ β where
  slots := [slot name c alias?]
  write r := [(name, c.encode (get r))]
  build m := match m.find? name with
    | some n => c.decode m.source n
    | none => .error (m.absent name)

/-- A field with a value of its own when it is left out. It is always written. -/
def defaulted (name : String) (get : ρ → β) (c : Codec β) (default : β) : Fields ρ β where
  slots := [slot name c none]
  write r := [(name, c.encode (get r))]
  build m := match m.find? name with
    | some n => c.decode m.source n
    | none => .ok default

/-- A field that is written unless `skip` says that its value is the default. -/
def omitted (name : String) (get : ρ → β) (c : Codec β) (default : β) (skip : β → Bool) :
    Fields ρ β where
  slots := [slot name c none]
  write r := if skip (get r) then [] else [(name, c.encode (get r))]
  build m := match m.find? name with
    | some n => c.decode m.source n
    | none => .ok default

def optional (name : String) (get : ρ → Option β) (c : Codec β) : Fields ρ (Option β) :=
  omitted name get c.option none Option.isNone

/-- An optional field whose place in a list must be filled. -/
def optionalInMap (name : String) (get : ρ → Option β) (c : Codec β) : Fields ρ (Option β) where
  slots := [slot name c.option none]
  write r := match get r with
    | none => []
    | some x => [(name, c.encode x)]
  build m := match m.find? name with
    | some n => c.option.decode m.source n
    | none => if m.positional then .error (m.absent name) else .ok none

def many (name : String) (get : ρ → List β) (c : Codec β) : Fields ρ (List β) :=
  omitted name get c.list [] List.isEmpty

def keyed (name : String) (get : ρ → Keyed β) (c : Codec β) : Fields ρ (Keyed β) :=
  omitted name get c.keyed .empty Keyed.isEmpty

/-- The field that a key means: by name, or by its place if the key is a number. -/
def slotOf (slots : List Slot) (key : Node) : Except Fault (Option Slot) :=
  match key with
  | .num (.natural i) => .ok slots[i]?
  | _ => do
    let name ← Codec.keyOf key
    pure (slots.find? (·.answersTo name))

/-- The entries of a map as the fields they answer to, up to the first fault. -/
def collect (slots : List Slot) (src : Source) (met : List (String × Node)) :
    List (Node × Node) → Except Fault (List (String × Node))
  | [] => .ok met
  | (k, v) :: rest => do
    match ← slotOf slots k with
    | none =>
      if v.intact then collect slots src met rest else throw .malformed
    | some s =>
      if met.any (·.1 = s.name) then throw (.mismatch (.duplicateField s.name))
      else do
        s.check src v
        collect slots src (met ++ [(s.name, v)]) rest

def ofEntries (f : Fields ρ α) (src : Source) (entries : List (Node × Node)) : Except Fault α := do
  let met ← collect f.slots src [] entries
  f.build ⟨src, met, fun name => .mismatch (.missingField name), false⟩

def elementCount (n : Nat) : String :=
  toString n ++ if n = 1 then " element" else " elements"

/-- The fault of items beyond the last field. -/
def surplus (src : Source) (fields items : Nat) : Fault :=
  match src with
  | .value => .mismatch (.invalidLength items "fewer elements in array")
  | .heldBack => .mismatch (.invalidLength items (elementCount fields ++ " in sequence"))
  | _ => .malformed

def checkItems (src : Source) : List Slot → List Node → Except Fault (List (String × Node))
  | s :: slots, n :: items => do
    s.check src n
    let rest ← checkItems src slots items
    pure ((s.name, n) :: rest)
  | _, _ => .ok []

def ofItems (f : Fields ρ α) (label : String) (src : Source) (items : List Node) :
    Except Fault α := do
  let met ← checkItems src f.slots items
  let absent name := Fault.mismatch
    (.invalidLength (f.slots.findIdx (·.name = name))
      (label ++ " with " ++ elementCount f.slots.length))
  let x ← f.build ⟨src, met, absent, true⟩
  if f.slots.length < items.length then throw (surplus src f.slots.length items.length) else pure x

/-- A record, called `label` where something else stands in its place. -/
def record (label : String) (f : Fields α α) : Codec α where
  encode x := .fields (f.write x)
  decode src n := match n.untagged with
    | .map entries => f.ofEntries src entries
    | .seq items =>
      if src = .plainText then .error (n.unexpected label) else f.ofItems label src items
    | .plain "" => f.ofEntries src []
    | m => .error (m.unexpected label)

end Fields

end GatewayPlan.Tree
