import StageTemplates.Decimal.Shortest

set_option autoImplicit false

/-!
How the digits of a float are laid out as text.
-/
namespace StageTemplates

/-- Where positional notation ends, how an exponent is signed, and the texts of what has no
digits. -/
structure Layout where
  /-- A number is written positionally while its first digit stands above `10 ^ lowest`. -/
  lowest : Int
  /-- A number is written positionally while its first digit stands below `10 ^ highest`. -/
  highest : Int
  plus : String
  infinity : String
  notANumber : String

namespace Layout

def zeros (count : Nat) : String := String.ofList (List.replicate count '0')

/-- The digits with a point after the first `point` of them. -/
def positional (digits : List Char) (point : Int) : String :=
  if point ≤ 0 then "0." ++ zeros (-point).toNat ++ String.ofList digits
  else if digits.length ≤ point.toNat then
    String.ofList digits ++ zeros (point.toNat - digits.length) ++ ".0"
  else
    String.ofList (digits.take point.toNat) ++ "." ++ String.ofList (digits.drop point.toNat)

/-- One digit before the point, and the power of ten. -/
def scientific (layout : Layout) (digits : List Char) (point : Int) : String :=
  let exponent := point - 1
  let fraction := if digits.length ≤ 1 then "" else "." ++ String.ofList (digits.drop 1)
  let sign := if exponent < 0 then "-" else layout.plus
  String.ofList (digits.take 1) ++ fraction ++ "e" ++ sign ++ toString exponent.natAbs

def magnitude (layout : Layout) (number : Decimal) : String :=
  if number.digits == 0 then "0.0"
  else
    let digits := (toString number.digits).toList
    let point := (digits.length : Int) + number.scale
    if layout.lowest < point && point ≤ layout.highest then positional digits point
    else layout.scientific digits point

def text (layout : Layout) (x : Float) : String :=
  if x.isNaN then layout.notANumber
  else
    (if signBit x then "-" else "") ++
      if x.isInf then layout.infinity else layout.magnitude (Decimal.ofFloat x)

/-- A float among data: positional from `0.00001` up to below `10 ^ 16`, exponents always signed. -/
def data : Layout := ⟨-5, 16, "+", ".inf", ".nan"⟩

/-- A float as a mapping key: as among data, but a positive exponent bears no sign. -/
def mappingKey : Layout := ⟨-5, 16, "", ".inf", ".nan"⟩

end Layout

end StageTemplates
