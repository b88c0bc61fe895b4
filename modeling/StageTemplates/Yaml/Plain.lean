import StageTemplates.Value
import StageTemplates.Decimal.Nearest
import StageTemplates.Yaml.ScalarText

set_option autoImplicit false

/-!
What the text of a plain scalar stands for.
-/
namespace StageTemplates

namespace Yaml

/-- What follows the word at the head of the text. -/
def afterWord? : (word text : List Char) → Option (List Char)
  | [], rest => some rest
  | c :: word, d :: rest => if c = d then afterWord? word rest else none
  | _ :: _, [] => none

def isNullWord (text : List Char) : Bool :=
  let word := String.ofList text
  word = "null" || word = "Null" || word = "NULL" || word = "~"

def boolean? (text : List Char) : Option Bool :=
  let word := String.ofList text
  if word = "true" || word = "True" || word = "TRUE" then some true
  else if word = "false" || word = "False" || word = "FALSE" then some false
  else none

def isSign (c : Char) : Bool := c = '+' || c = '-'

def signed (text : List Char) : Bool :=
  match text with
  | c :: _ => isSign c
  | [] => false

def withoutPlus (text : List Char) : List Char :=
  match text with
  | '+' :: rest => rest
  | rest => rest

/-- The number that the digits stand for; none if there are none, or one is too great for the
base. -/
def natural? (base : Nat) (digits : List Char) : Option Nat :=
  if digits.isEmpty then none
  else
    digits.foldlM (fun number c =>
      match hexValue? c with
      | some digit => if digit < base then some (number * base + digit) else none
      | none => none) 0

/-- Bases other than ten are marked by a letter after a zero. -/
def baseMarks : List (List Char × Nat) := [(['0', 'x'], 16), (['0', 'o'], 8), (['0', 'b'], 2)]

/-- Decimal digits that begin with a zero are no number, but for the zero alone. -/
def zeroPadded (text : List Char) : Bool :=
  let digits :=
    match text with
    | c :: rest => if isSign c then rest else c :: rest
    | [] => []
  match digits with
  | '0' :: c :: rest => (c :: rest).all isDigit
  | _ => false

/-- A number without a minus sign that is below `limit`. -/
def unsigned? (limit : Nat) (text : List Char) : Option Nat :=
  let below := fun (n : Nat) => if n < limit then some n else none
  let body := withoutPlus text
  let marked := baseMarks.findSome? fun (mark, base) =>
    match afterWord? mark body with
    | some digits => if signed digits then none else (natural? base digits).bind below
    | none => none
  match marked with
  | some n => some n
  | none => if signed body || zeroPadded text then none else (natural? 10 body).bind below

/-- The magnitude, at most `limit`, of a number with a minus sign. -/
def negated? (limit : Nat) (text : List Char) : Option Nat :=
  match text with
  | '-' :: body =>
      let within := fun (n : Nat) => if n ≤ limit then some n else none
      let marked := baseMarks.findSome? fun (mark, base) =>
        match afterWord? mark body with
        | some digits => (natural? base digits).bind within
        | none => none
      match marked with
      | some n => some n
      | none => if zeroPadded text then none else (natural? 10 body).bind within
  | _ => none

/-- How a text reads as an integer. -/
inductive IntegerText where
  | fits (number : Int)
  /-- It needs more than 64 bits and at most 128. -/
  | tooWide
  | other
deriving DecidableEq, Repr

def IntegerText.ofChars (text : List Char) : IntegerText :=
  match unsigned? (Nat.pow 2 64) text, negated? (Nat.pow 2 63) text with
  | some n, _ => .fits n
  | none, some n => .fits (-(n : Int))
  | none, none =>
      match unsigned? (Nat.pow 2 128) text, negated? (Nat.pow 2 127) text with
      | none, none => .other
      | _, _ => .tooWide

/-- A float written with digits, at most one point among or beside them, and an exponent. -/
def decimalFloat? (text : List Char) : Option Float := do
  let (negative, body) :=
    match text with
    | '-' :: rest => (true, rest)
    | rest => (false, withoutPlus rest)
  let whole := body.takeWhile isDigit
  let body := body.dropWhile isDigit
  let (fraction, body) :=
    match body with
    | '.' :: rest => (rest.takeWhile isDigit, rest.dropWhile isDigit)
    | rest => ([], rest)
  let exponent : Int ←
    match body with
    | [] => some 0
    | mark :: rest =>
        if mark = 'e' || mark = 'E' then
          match rest with
          | '-' :: digits => (natural? 10 digits).map fun n => -(n : Int)
          | rest => (natural? 10 (withoutPlus rest)).map fun n => (n : Int)
        else none
  let digits ← natural? 10 (whole ++ fraction)
  let magnitude := Decimal.nearest digits (exponent - fraction.length)
  if magnitude.isInf then none else some (if negative then -magnitude else magnitude)

def float? (text : List Char) : Option Float :=
  let body := withoutPlus text
  if body.length < text.length && signed body then none
  else
    let word := String.ofList body
    let whole := String.ofList text
    if word = ".inf" || word = ".Inf" || word = ".INF" then some (1.0 / 0.0)
    else if whole = "-.inf" || whole = "-.Inf" || whole = "-.INF" then some (-1.0 / 0.0)
    else if whole = ".nan" || whole = ".NaN" || whole = ".NAN" then some (0.0 / 0.0)
    else decimalFloat? body

/-- The scalar that a plain text stands for. None for an integer that needs more than 64 bits and
at most 128. -/
def plainScalar? (text : List Char) : Option Scalar :=
  if text.isEmpty || isNullWord text then some .null
  else
    match boolean? text with
    | some value => some (.bool value)
    | none =>
        match IntegerText.ofChars text with
        | .fits number => some (.int number)
        | .tooWide => none
        | .other =>
            match (if zeroPadded text then none else float? text) with
            | some number => some (.float number)
            | none => some (.string (String.ofList text))

end Yaml

end StageTemplates
