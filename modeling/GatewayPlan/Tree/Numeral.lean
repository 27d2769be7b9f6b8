import GatewayPlan.Decimal.Shortest

/-!
# Numerals

The numbers of a data tree: whole numbers exactly, all others as the bits of a double.
-/

namespace GatewayPlan.Tree

inductive Numeral where
  | natural (n : Nat)
  /-- Stands for `-n`, with `n` positive. -/
  | negative (n : Nat)
  | real (bits : UInt64)
  deriving DecidableEq, Repr

namespace Numeral

/-- Positional from `1e-5` up to `1e16`, always with a fraction; otherwise one digit before the
point and a signed exponent. -/
def realText (bits : UInt64) : String :=
  let sign := if bits.toNat / Nat.pow 2 63 = 1 then "-" else ""
  let x := Decimal.Dyadic.ofBits bits
  if x.m = 0 then sign ++ "0.0" else
    let p := x.shortest
    let digits := (toString p.d).toList
    let lead := p.k + (digits.length : Int) - 1
    let body :=
      if lead < -5 || 15 < lead then
        let fraction := if digits.length = 1 then [] else '.' :: digits.drop 1
        digits.take 1 ++ fraction ++ (if lead < 0 then ['e', '-'] else ['e', '+']) ++
          (toString lead.natAbs).toList
      else if 0 ≤ p.k then digits ++ List.replicate p.k.toNat '0' ++ ['.', '0']
      else if 0 ≤ lead then
        digits.take (lead.toNat + 1) ++ '.' :: digits.drop (lead.toNat + 1)
      else '0' :: '.' :: List.replicate (-lead - 1).toNat '0' ++ digits
    sign ++ String.ofList body

def text : Numeral → String
  | natural n => toString n
  | negative n => "-" ++ toString n
  | real bits => realText bits

end Numeral

end GatewayPlan.Tree
