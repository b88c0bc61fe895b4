set_option autoImplicit false

/-!
The shortest decimal digits that read back as a given binary float. The search goes from coarse
to fine decimal grids and stops at the first grid with a point that rounds to the float; of two
such points it takes the nearer, and of two equally near the even one.
-/
namespace StageTemplates

/-- The number `digits * 10 ^ scale`. -/
structure Decimal where
  digits : Nat
  scale : Int
deriving DecidableEq, Repr

namespace Decimal

/-- A positive number and the bounds of what rounds to it, all over one denominator. -/
structure Rounding where
  value : Nat
  low : Nat
  high : Nat
  denominator : Nat
  /-- Whether the bounds themselves round to the number. -/
  closed : Bool

/-- The numbers that round to `mantissa * 2 ^ exponent`; below a power of two they lie closer. -/
def Rounding.ofBinary (mantissa : Nat) (exponent : Int) (lowest : Bool) : Rounding :=
  let up := Nat.pow 2 (exponent - 2).toNat
  { value := 4 * mantissa * up
    low := (4 * mantissa - if lowest then 1 else 2) * up
    high := (4 * mantissa + 2) * up
    denominator := Nat.pow 2 (2 - exponent).toNat
    closed := mantissa % 2 == 0 }

/-- Whether `digits * 10 ^ scale` rounds to the number. -/
def Rounding.accepts (rounding : Rounding) (number : Decimal) : Bool :=
  let scaled := number.digits * Nat.pow 10 number.scale.toNat * rounding.denominator
  let down := Nat.pow 10 (-number.scale).toNat
  if rounding.closed then
    rounding.low * down ≤ scaled && scaled ≤ rounding.high * down
  else
    rounding.low * down < scaled && scaled < rounding.high * down

/-- The point of the grid `10 ^ scale` to take, if one rounds to the number. -/
def Rounding.nearest? (rounding : Rounding) (scale : Int) : Option Decimal :=
  let numerator := rounding.value * Nat.pow 10 (-scale).toNat
  let unit := rounding.denominator * Nat.pow 10 scale.toNat
  let below : Decimal := ⟨numerator / unit, scale⟩
  let above : Decimal := ⟨numerator / unit + 1, scale⟩
  match rounding.accepts below, rounding.accepts above with
  | false, false => none
  | true, false => some below
  | false, true => some above
  | true, true =>
      let rest : Nat := 2 * (numerator % unit)
      if rest < unit || (rest == unit && below.digits % 2 == 0) then some below else some above

/-- Tries the grids from `10 ^ scale` downwards. -/
def Rounding.search (rounding : Rounding) : (tries : Nat) → (scale : Int) → Option Decimal
  | 0, _ => none
  | tries + 1, scale =>
      match rounding.nearest? scale with
      | some number => some number
      | none => rounding.search tries (scale - 1)

/-- No power of ten from here up is below the number. -/
def Rounding.topScale (rounding : Rounding) : Int :=
  let bits : Int := (Nat.log2 rounding.value : Int) + 1 - Nat.log2 rounding.denominator
  bits * 30103 / 100000 + 2

/-- The shortest digits of the absolute value of a finite float. -/
def ofFloat (x : Float) : Decimal :=
  let bits := x.toBits.toNat
  let exponent : Nat := bits / Nat.pow 2 52 % Nat.pow 2 11
  let fraction : Nat := bits % Nat.pow 2 52
  if exponent == 0 && fraction == 0 then ⟨0, 0⟩
  else
    let rounding :=
      if exponent == 0 then Rounding.ofBinary fraction (-1074) false
      else Rounding.ofBinary (fraction + Nat.pow 2 52) ((exponent : Int) - 1075)
        (fraction == 0 && 1 < exponent)
    (rounding.search 40 rounding.topScale).getD ⟨rounding.value / rounding.denominator, 0⟩

end Decimal

/-- Whether the sign bit is set; it is for the negative zero too. -/
def signBit (x : Float) : Bool := x.toBits.toNat / Nat.pow 2 63 % 2 == 1

end StageTemplates
