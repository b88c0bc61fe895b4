import StageTemplates.Value
import StageTemplates.Decimal.Nearest

set_option autoImplicit false

/-!
Numbers in JSON text. An integer of 64 bits stays an integer. Any other number is read from the
leading digits that fit 64 bits, scaled once by a power of ten: quick, and at times one unit in the
last place off the nearest float.
-/
namespace StageTemplates

namespace Json

def isDigit (c : Char) : Bool := '0' ≤ c && c ≤ '9'

def digitValue (c : Char) : Nat := c.toNat - 48

/-- The parts of a number as written. -/
structure Numeral where
  negative : Bool
  whole : List Char
  fraction : List Char
  /-- The sign and digits after the exponent mark. -/
  exponent : Option (Bool × List Char)

/-- Reads on while the number read so far fits 64 bits; gives it and the count of digits used. -/
def leading : (number used : Nat) → List Char → Nat × Nat
  | number, used, [] => (number, used)
  | number, used, c :: rest =>
      let next := number * 10 + digitValue c
      if next < Nat.pow 2 64 then leading next (used + 1) rest else (number, used)

def digitsValue (digits : List Char) : Nat :=
  digits.foldl (fun number c => number * 10 + digitValue c) 0

/-- `number * 10 ^ exponent` by one multiplication or division, with at most `steps` divisions
before it that bring the exponent into range. -/
def scaled : (steps : Nat) → (number : Float) → (exponent : Int) → Option Float
  | steps, number, exponent =>
      if exponent.natAbs ≤ 308 then
        let power := Decimal.nearestFloat (Nat.pow 10 exponent.natAbs) 1
        if 0 ≤ exponent then
          let product := number * power
          if product.isInf then none else some product
        else some (number / power)
      else if number == 0.0 then some number
      else if 0 ≤ exponent then none
      else
        match steps with
        | 0 => some 0.0
        | steps + 1 =>
            scaled steps (number / Decimal.nearestFloat (Nat.pow 10 308) 1) (exponent + 308)

/-- The number that a numeral stands for; none if it is too great for a float. -/
def Numeral.scalar? (numeral : Numeral) : Option Scalar :=
  let (head, used) := leading 0 0 numeral.whole
  let dropped := numeral.whole.length - used
  match numeral.fraction, numeral.exponent, dropped with
  | [], none, 0 =>
      if !numeral.negative then some (.int head)
      else if head = 0 || Nat.pow 2 63 < head then some (.float (-head.toUInt64.toFloat))
      else some (.int (-(head : Int)))
  | _, _, _ =>
      let (number, fractionUsed) := leading head 0 numeral.fraction
      let start : Int := (dropped : Int) - fractionUsed
      let signed := fun (x : Float) => Scalar.float (if numeral.negative then -x else x)
      let float := number.toUInt64.toFloat
      match numeral.exponent with
      | none => (scaled 4 float start).map signed
      | some (down, digits) =>
          let power := digitsValue digits
          if Nat.pow 2 31 ≤ power then
            if number = 0 || down then some (signed 0.0) else none
          else (scaled 4 float (if down then start - power else start + power)).map signed

/-- The digits at the head of the text, of which there must be one. -/
def someDigits (text : List Char) : Option (List Char × List Char) :=
  match text.takeWhile isDigit with
  | [] => none
  | digits => some (digits, text.dropWhile isDigit)

def exponentPart (text : List Char) : Option (Option (Bool × List Char) × List Char) :=
  match text with
  | mark :: rest =>
      if mark = 'e' || mark = 'E' then
        let (down, rest) :=
          match rest with
          | '-' :: rest => (true, rest)
          | '+' :: rest => (false, rest)
          | rest => (false, rest)
        (someDigits rest).map fun (digits, rest) => (some (down, digits), rest)
      else some (none, mark :: rest)
  | [] => some (none, [])

def fractionPart (text : List Char) : Option (List Char × List Char) :=
  match text with
  | '.' :: rest => someDigits rest
  | rest => some ([], rest)

def wholePart (text : List Char) : Option (List Char × List Char) :=
  match someDigits text with
  | some ('0' :: _ :: _, _) => none
  | other => other

/-- Reads a number at the head of the text. -/
def readNumber (text : List Char) : Option (Scalar × List Char) := do
  let (negative, text) :=
    match text with
    | '-' :: rest => (true, rest)
    | rest => (false, rest)
  let (whole, text) ← wholePart text
  let (fraction, text) ← fractionPart text
  let (exponent, text) ← exponentPart text
  let number ← Numeral.scalar? ⟨negative, whole, fraction, exponent⟩
  return (number, text)

end Json

end StageTemplates
