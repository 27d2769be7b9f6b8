/-!
# The fewest digits that read back

A positive double is `m * 2 ^ q`. All reals nearer to it than to its neighbours round to it, the
two ends of that interval included when `m` is even. The ends are whole numbers of quarters of
`2 ^ q`, and a quarter is held as numerator and denominator. `Dyadic.shortest` looks on the decimal
grids of 1, 2, … 17 digits for a point of the interval next to the value, and takes the first grid
that has one.
-/

namespace GatewayPlan.Decimal

/-- The value `m * 2 ^ q`; `narrow` when the gap below it is half the gap above it. -/
structure Dyadic where
  m : Nat
  q : Int
  narrow : Bool
  deriving DecidableEq, Repr

def Dyadic.ofBits (bits : UInt64) : Dyadic :=
  let fraction := bits.toNat % Nat.pow 2 52
  let exponent : Nat := bits.toNat / Nat.pow 2 52 % Nat.pow 2 11
  if exponent = 0 then ⟨fraction, -1074, false⟩
  else ⟨fraction + Nat.pow 2 52, (exponent : Int) - 1075, fraction = 0 && exponent > 1⟩

structure Digits where
  d : Nat
  k : Int
  deriving DecidableEq, Repr

/-- The point next to the value on the first grid may be its upper end, `10 * 10 ^ k`. -/
def Digits.carried (p : Digits) : Digits :=
  if p.d = 10 then ⟨1, p.k + 1⟩ else p

namespace Dyadic

def quarter (x : Dyadic) : Nat × Nat :=
  (Nat.pow 2 (x.q - 2).toNat, Nat.pow 2 (2 - x.q).toNat)

/-- `d * 10 ^ k` against `n` quarters, both over one denominator. -/
def scaled (x : Dyadic) (p : Digits) (n : Nat) : Nat × Nat :=
  let (num, den) := x.quarter
  (p.d * Nat.pow 10 p.k.toNat * den, n * num * Nat.pow 10 (-p.k).toNat)

def roundsTo (x : Dyadic) (p : Digits) : Bool :=
  let low := x.scaled p (4 * x.m - if x.narrow then 1 else 2)
  let high := x.scaled p (4 * x.m + 2)
  if x.m % 2 = 0 then low.2 ≤ low.1 && high.1 ≤ high.2 else low.2 < low.1 && high.1 < high.2

def below (x : Dyadic) (k : Int) : Digits :=
  let (num, den) := x.quarter
  ⟨4 * x.m * num * Nat.pow 10 (-k).toNat / (den * Nat.pow 10 k.toNat), k⟩

def nearest? (x : Dyadic) (k : Int) : Option Digits :=
  let low := x.below k
  let high : Digits := ⟨low.d + 1, k⟩
  match x.roundsTo low, x.roundsTo high with
  | true, true =>
    let twice := x.scaled ⟨2 * low.d + 1, k⟩ (8 * x.m)
    if twice.2 < twice.1 then some low
    else if twice.1 < twice.2 then some high
    else some (if low.d % 2 = 0 then low else high)
  | true, false => some low
  | false, true => some high
  | false, false => none

/-- The exponent of the leading decimal digit: the least `e` with the value below `10 ^ (e + 1)`. -/
def magnitude (x : Dyadic) : Int :=
  let (num, den) := x.quarter
  let v := 4 * x.m * num
  if den ≤ v then ((Nat.toDigits 10 (v / den)).length : Int) - 1
  else match (List.range 400).find? fun j => den ≤ v * Nat.pow 10 j with
    | some j => -(j : Int)
    | none => 0

def shortest (x : Dyadic) : Digits :=
  let e := x.magnitude
  match (List.range 17).findSome? fun n : Nat => x.nearest? (e - n) with
  | some p => p.carried
  | none => x.below (e - 16)

end Dyadic

example : (Dyadic.ofBits 0x3FB999999999999A).shortest = ⟨1, -1⟩ := by decide +kernel

example : (Dyadic.ofBits 1).shortest = ⟨5, -324⟩ := by decide +kernel

end GatewayPlan.Decimal
