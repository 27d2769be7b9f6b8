/-!
# Decimals as doubles

The bits of the double that a decimal numeral stands for, in the two ways data files ask for it:
rounded once, or scaled step by step from a 64-bit significand. A numeral beyond the finite doubles
has none.
-/

namespace GatewayPlan.Decimal

/-- The double nearest to `digits * 10 ^ exponent`. -/
def nearestDouble? (digits : Nat) (exponent : Int) : Option UInt64 :=
  let lead := ((Nat.toDigits 10 digits).length : Int) + exponent
  if digits = 0 || lead < -400 then some 0
  else if 400 < lead then none
  else
    let f := Float.ofScientific digits (exponent < 0) exponent.natAbs
    if f.isFinite then some f.toBits else none

def powerOfTen (n : Nat) : Float :=
  Float.ofScientific 1 false n

/-- Scales a significand by a power of ten, dividing by `10 ^ 308` as long as the exponent is
below `-308`. Zero is reached after a few divisions, so a short countdown is enough. -/
def scaleDown (f : Float) (exponent : Int) : Nat → Float
  | 0 => 0
  | steps + 1 =>
    if f == 0 then f
    else if exponent < -308 then scaleDown (f / powerOfTen 308) (exponent + 308) steps
    else f / powerOfTen exponent.natAbs

def scaled? (significand : Nat) (exponent : Int) : Option UInt64 :=
  let f := Float.ofNat significand
  if exponent < 0 then some (scaleDown f exponent 5).toBits
  else if significand = 0 then some 0
  else if 308 < exponent then none
  else
    let scaledUp := f * powerOfTen exponent.natAbs
    if scaledUp.isFinite then some scaledUp.toBits else none

end GatewayPlan.Decimal
