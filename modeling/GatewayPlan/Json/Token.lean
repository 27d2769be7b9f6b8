import GatewayPlan.Decimal.Double
import GatewayPlan.Tree.Node

/-!
# JSON tokens

The tokens of a JSON text up to the first place where it is not well formed, which is a token of
its own.
-/

namespace GatewayPlan.Json

open GatewayPlan.Tree

inductive Token where
  /-- A bracket, a brace, a colon or a comma. -/
  | mark (c : Char)
  /-- The text of a string, unless half of a surrogate pair is in it. -/
  | string (s : Option String)
  /-- A scalar without quotes. -/
  | leaf (n : Node)
  | garbage
  deriving Inhabited, Repr

/-- What a string stands for. -/
def Token.text : Option String → Node
  | some s => .text s
  | none => .unreadable

def isBlank (c : Char) : Bool :=
  c = ' ' || c = '\n' || c = '\t' || c = '\r'

def isMark (c : Char) : Bool :=
  c ∈ ['\x7b', '\x7d', '[', ']', ':', ',']

def hex? (c : Char) : Option Nat :=
  if '0' ≤ c && c ≤ '9' then some (c.toNat - 48)
  else if 'a' ≤ c && c ≤ 'f' then some (c.toNat - 87)
  else if 'A' ≤ c && c ≤ 'F' then some (c.toNat - 55)
  else none

def hex4? (a b c d : Char) : Option Nat := do
  pure ((((← hex? a) * 16 + (← hex? b)) * 16 + (← hex? c)) * 16 + (← hex? d))

def escape? : Char → Option Char
  | '"' => some '"'
  | '\\' => some '\\'
  | '/' => some '/'
  | 'b' => some '\x08'
  | 'f' => some '\x0c'
  | 'n' => some '\n'
  | 'r' => some '\r'
  | 't' => some '\t'
  | _ => none

def isHighSurrogate (n : Nat) : Bool := 0xD800 ≤ n && n < 0xDC00

def isLowSurrogate (n : Nat) : Bool := 0xDC00 ≤ n && n < 0xE000

/-- The rest of a string after its opening quote: its characters, none if half of a surrogate pair
is among them, and what follows. `acc` holds the characters so far, last first. -/
def scanString (acc : Option (List Char)) : List Char → Option (Option (List Char) × List Char)
  | '"' :: rest => some (acc.map List.reverse, rest)
  | '\\' :: 'u' :: a :: b :: c :: d :: rest =>
    match hex4? a b c d with
    | none => none
    | some n =>
      if isHighSurrogate n then
        match _pair : rest with
        | '\\' :: 'u' :: e :: f :: g :: h :: rest' =>
          match (hex4? e f g h).filter isLowSurrogate with
          | some m =>
            let c := Char.ofNat (0x10000 + (n - 0xD800) * 0x400 + (m - 0xDC00))
            scanString (acc.map (c :: ·)) rest'
          | none => scanString none ('\\' :: 'u' :: e :: f :: g :: h :: rest')
        | _ => scanString none rest
      else if isLowSurrogate n then scanString none rest
      else scanString (acc.map (Char.ofNat n :: ·)) rest
  | '\\' :: c :: rest =>
    match escape? c with
    | some e => scanString (acc.map (e :: ·)) rest
    | none => none
  | c :: rest => if c = '\\' || c.toNat < 0x20 then none else scanString (acc.map (c :: ·)) rest
  | [] => none
termination_by cs => cs.length

/-- Digits added to a significand of 64 bits as long as they fit: the significand, how many were
added, and how many were left. -/
def absorb (significand : Nat) : List Char → Nat × Nat × Nat
  | [] => (significand, 0, 0)
  | c :: rest =>
    let next := significand * 10 + (c.toNat - 48)
    if next < UInt64.size then
      let (s, added, left) := absorb next rest
      (s, added + 1, left)
    else (significand, 0, rest.length + 1)

def digits (cs : List Char) : List Char × List Char :=
  (cs.takeWhile Char.isDigit, cs.dropWhile Char.isDigit)

/-- A fraction, if a point follows. None if the point has no digit after it. -/
def fraction? (cs : List Char) : Option (List Char × List Char) :=
  match cs with
  | '.' :: rest => if (digits rest).1.isEmpty then none else some (digits rest)
  | _ => some ([], cs)

structure Exponent where
  below : Bool
  magnitude : Nat

/-- An exponent, if its letter follows. None if it has no digit. -/
def exponent? (cs : List Char) : Option (Option Exponent × List Char) :=
  match cs with
  | e :: rest =>
    if e = 'e' || e = 'E' then
      let (below, rest) := match rest with
        | '+' :: tail => (false, tail)
        | '-' :: tail => (true, tail)
        | _ => (false, rest)
      let (ds, rest) := digits rest
      if ds.isEmpty then none
      else some (some ⟨below, ds.foldl (fun n c => n * 10 + (c.toNat - 48)) 0⟩, rest)
    else some (none, cs)
  | [] => some (none, [])

/-- The digits before the point: a zero alone or no zero in front. -/
def whole? (cs : List Char) : Option (List Char × List Char) :=
  match digits cs with
  | ([], _) => none
  | ('0' :: _ :: _, _) => none
  | (ds, rest) => some (ds, rest)

def real (negative : Bool) (bits : UInt64) : Node :=
  .num (.real (if negative then bits ||| 0x8000000000000000 else bits))

/-- The value of a decimal. One beyond the doubles is no value. -/
def realNode (negative : Bool) (significand : Nat) (shift : Int) (e : Option Exponent) : Node :=
  match e with
  | some e =>
    if Nat.pow 2 31 ≤ e.magnitude then
      if significand ≠ 0 && !e.below then .unreadable else real negative 0
    else
      let exponent := if e.below then shift - e.magnitude else shift + e.magnitude
      ((Decimal.scaled? significand exponent).map (real negative)).getD .unreadable
  | none => ((Decimal.scaled? significand shift).map (real negative)).getD .unreadable

/-- The value of a whole number, as long as it fits 64 bits. -/
def wholeNode (negative : Bool) (n : Nat) : Node :=
  if !negative then .num (.natural n)
  else if n = 0 || Nat.pow 2 63 < n then realNode true n 0 none
  else .num (.negative n)

def scanNumber (cs : List Char) : Option (Node × List Char) := do
  let (negative, unsigned) := match cs with
    | '-' :: rest => (true, rest)
    | _ => (false, cs)
  let (wholeDigits, rest) ← whole? unsigned
  let (fractionDigits, rest) ← fraction? rest
  let (e, rest) ← exponent? rest
  let (s, _, left) := absorb 0 wholeDigits
  if fractionDigits.isEmpty && e.isNone && left = 0 then pure (wholeNode negative s, rest)
  else
    let (s, added, _) := absorb s fractionDigits
    pure (realNode negative s ((left : Int) - added) e, rest)

def word? (cs : List Char) : Option (Node × List Char) :=
  match cs with
  | 'n' :: 'u' :: 'l' :: 'l' :: rest => some (.null, rest)
  | 't' :: 'r' :: 'u' :: 'e' :: rest => some (.bool true, rest)
  | 'f' :: 'a' :: 'l' :: 's' :: 'e' :: rest => some (.bool false, rest)
  | _ => none

/-- The token that starts with `c`, if it is a scalar. -/
def scanScalar (c : Char) (rest : List Char) : Option (Token × List Char) :=
  if c = '"' then
    (scanString (some []) rest).map fun (cs, rest) => (.string (cs.map String.ofList), rest)
  else
    (if c = '-' || c.isDigit then scanNumber (c :: rest) else word? (c :: rest)).map
      fun (n, rest) => (.leaf n, rest)

/-- The first tokens of a text. Each takes at least one character, so the length of the text is
enough for all of them. -/
def tokensWithin : Nat → List Char → List Token
  | 0, _ => []
  | _ + 1, [] => []
  | n + 1, c :: rest =>
    if isBlank c then tokensWithin n rest
    else if isMark c then .mark c :: tokensWithin n rest
    else match scanScalar c rest with
      | some (t, rest) => t :: tokensWithin n rest
      | none => [.garbage]

def tokens (s : String) : List Token :=
  tokensWithin s.length s.toList

end GatewayPlan.Json
