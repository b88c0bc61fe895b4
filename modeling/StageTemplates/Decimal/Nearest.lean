set_option autoImplicit false

/-!
The float nearest to a fraction, in exact arithmetic; of two equally near the even one.
-/
namespace StageTemplates

namespace Decimal

/-- The quotient rounded to the nearest integer, a half to the even neighbour. -/
def roundedQuotient (numerator denominator : Nat) : Nat :=
  let whole := numerator / denominator
  let rest := 2 * (numerator % denominator)
  if rest < denominator then whole
  else if rest = denominator then whole + whole % 2
  else whole + 1

/-- The greatest `k` with `2 ^ k ≤ numerator / denominator`, for positive numbers. -/
def floorLog2 (numerator denominator : Nat) : Int :=
  let k : Int := (Nat.log2 numerator : Int) - Nat.log2 denominator
  if denominator * Nat.pow 2 k.toNat ≤ numerator * Nat.pow 2 (-k).toNat then k else k - 1

/-- The float nearest to `numerator / denominator`; too great a number gives the infinity. -/
def nearestFloat (numerator denominator : Nat) : Float :=
  if numerator = 0 then 0.0
  else
    let exponent := max (floorLog2 numerator denominator - 52) (-1074)
    let mantissa := roundedQuotient (numerator * Nat.pow 2 (-exponent).toNat)
      (denominator * Nat.pow 2 exponent.toNat)
    let bits := (exponent + 1074).toNat * Nat.pow 2 52 + mantissa
    Float.ofBits (UInt64.ofNat (min bits 0x7FF0000000000000))

def digitCount : Nat → Nat := fun n => (toString n).length

/-- The float nearest to `digits * 10 ^ scale`. Scales far outside the range of floats are not
raised to a power. -/
def nearest (digits : Nat) (scale : Int) : Float :=
  if digits = 0 then 0.0
  else if 400 < scale + digitCount digits then nearestFloat (Nat.pow 10 400) 1
  else if scale + digitCount digits < -400 then 0.0
  else nearestFloat (digits * Nat.pow 10 scale.toNat) (Nat.pow 10 (-scale).toNat)

end Decimal

end StageTemplates
