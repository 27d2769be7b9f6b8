import GatewayPlan.Decimal.Double
import GatewayPlan.Tree.Node

/-!
# Scalars without quotes

Which value a scalar without quotes stands for where the reader does not ask for a type: null, a
truth value, a whole number in one of four bases, a finite decimal, and otherwise its own text. A
number with a needless leading zero is text.
-/

namespace GatewayPlan.Tree

namespace Plain

def isNull (s : String) : Bool :=
  s = "" || s = "~" || s = "null" || s = "Null" || s = "NULL"

def bool? (s : String) : Option Bool :=
  if s = "true" || s = "True" || s = "TRUE" then some true
  else if s = "false" || s = "False" || s = "FALSE" then some false
  else none

def digit? (base : Nat) (c : Char) : Option Nat :=
  let n :=
    if '0' ≤ c && c ≤ '9' then c.toNat - '0'.toNat
    else if 'a' ≤ c && c ≤ 'z' then c.toNat - 'a'.toNat + 10
    else if 'A' ≤ c && c ≤ 'Z' then c.toNat - 'A'.toNat + 10
    else base
  if n < base then some n else none

def nat? (base : Nat) (cs : List Char) : Option Nat :=
  if cs.isEmpty then none
  else cs.foldl (fun acc c => do return (← acc) * base + (← digit? base c)) (some 0)

def unsigned? : List Char → Option Nat
  | '0' :: 'x' :: rest => nat? 16 rest
  | '0' :: 'o' :: rest => nat? 8 rest
  | '0' :: 'b' :: rest => nat? 2 rest
  | cs => nat? 10 cs

/-- Digits after a zero, with or without a sign before it. -/
def hasNeedlessZero (cs : List Char) : Bool :=
  let body := match cs with
    | '-' :: rest => rest
    | '+' :: rest => rest
    | _ => cs
  match body with
  | '0' :: d :: rest => (d :: rest).all Char.isDigit
  | _ => false

/-- A whole number that fits 128 bits. -/
def integer? (cs : List Char) : Option Numeral :=
  if hasNeedlessZero cs then none
  else match cs with
    | '+' :: rest => natural rest
    | '-' :: rest => negative rest
    | _ => natural cs
where
  natural (cs : List Char) : Option Numeral :=
    ((unsigned? cs).filter (· < Nat.pow 2 128)).map .natural
  negative (cs : List Char) : Option Numeral :=
    ((unsigned? cs).filter (· ≤ Nat.pow 2 127)).map fun n =>
      if n = 0 then .natural 0 else .negative n

def exponent? : List Char → Option Int
  | '-' :: rest => (nat? 10 rest).map fun n => -(n : Int)
  | '+' :: rest => (nat? 10 rest).map Int.ofNat
  | cs => (nat? 10 cs).map Int.ofNat

/-- Digits with at most one point among them, at least one digit, and an exponent or none. -/
def magnitude? (cs : List Char) : Option UInt64 := do
  let whole := cs.takeWhile Char.isDigit
  let afterWhole := cs.dropWhile Char.isDigit
  let (fraction, rest) := match afterWhole with
    | '.' :: tail => (tail.takeWhile Char.isDigit, tail.dropWhile Char.isDigit)
    | _ => ([], afterWhole)
  let digits ← nat? 10 (whole ++ fraction)
  let exponent ← match rest with
    | [] => some 0
    | 'e' :: tail => exponent? tail
    | 'E' :: tail => exponent? tail
    | _ => none
  Decimal.nearestDouble? digits (exponent - fraction.length)

def signBit : UInt64 := 0x8000000000000000

def real? (s : String) : Option UInt64 :=
  if s = ".inf" || s = ".Inf" || s = ".INF" || s = "+.inf" || s = "+.Inf" || s = "+.INF" then
    some 0x7FF0000000000000
  else if s = "-.inf" || s = "-.Inf" || s = "-.INF" then some 0xFFF0000000000000
  else if s = ".nan" || s = ".NaN" || s = ".NAN" then some 0x7FF8000000000000
  else if hasNeedlessZero s.toList then none
  else match s.toList with
    | '-' :: rest => (magnitude? rest).map (· ||| signBit)
    | '+' :: rest => magnitude? rest
    | cs => magnitude? cs

def resolve (s : String) : Node :=
  if isNull s then .null
  else match bool? s with
    | some b => .bool b
    | none => match integer? s.toList with
      | some n => .num n
      | none => match real? s with
        | some bits => .num (.real bits)
        | none => .text s

/-- The value if it can be kept without being told a type, where whole numbers have 64 bits. -/
def kept? : Node → Option Node
  | .num (.natural n) => if n < Nat.pow 2 64 then some (.num (.natural n)) else none
  | .num (.negative n) => if n ≤ Nat.pow 2 63 then some (.num (.negative n)) else none
  | n => some n

/-- The value of a scalar under a tag of the core. It is text unless the tag says otherwise. -/
def tagged? (tag s : String) : Option Node :=
  if tag = Node.nullTag then (if s ≠ "" && isNull s then some .null else none)
  else if tag = Node.coreTag "bool" then (bool? s).map .bool
  else if tag = Node.coreTag "int" then (integer? s.toList).bind fun n => kept? (.num n)
  else if tag = Node.coreTag "float" then (real? s).map fun bits => .num (.real bits)
  else some (.text s)

end Plain

namespace Node

mutual
/-- The tree with a value at every scalar, if all of it stands for one without being told a type. -/
def settled? : Node → Option Node
  | plain s => Plain.kept? (Plain.resolve s)
  | seq items => (settledItems? items).map seq
  | map entries => (settledEntries? entries).map map
  | tagged tag content =>
    if (localTag? tag).isSome then none
    else match content with
      | plain s => Plain.tagged? tag s
      | text s => Plain.tagged? tag s
      | n => n.settled?
  | broken => none
  | unreadable => none
  | n => some n

def settledItems? : List Node → Option (List Node)
  | [] => some []
  | n :: rest =>
    match n.settled?, settledItems? rest with
    | some n', some rest' => some (n' :: rest')
    | _, _ => none

def settledEntries? : List (Node × Node) → Option (List (Node × Node))
  | [] => some []
  | (k, v) :: rest =>
    match k.settled?, v.settled?, settledEntries? rest with
    | some k', some v', some rest' => some ((k', v') :: rest')
    | _, _, _ => none
end

end Node

end GatewayPlan.Tree
