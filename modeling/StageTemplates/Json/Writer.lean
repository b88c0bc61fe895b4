import StageTemplates.Value
import StageTemplates.Decimal.Layout

set_option autoImplicit false

/-!
The compact text of a value: no blanks, and the entries of a dictionary in their order.
-/
namespace StageTemplates

namespace Json

def hexDigit (n : Nat) : Char :=
  if n < 10 then Char.ofNat (48 + n) else Char.ofNat (87 + n)

/-- What stands for a character inside quotes. -/
def escaped (c : Char) : List Char :=
  if c = '"' then ['\\', '"']
  else if c = '\\' then ['\\', '\\']
  else if c = '\n' then ['\\', 'n']
  else if c = '\r' then ['\\', 'r']
  else if c = '\t' then ['\\', 't']
  else if c.toNat = 8 then ['\\', 'b']
  else if c.toNat = 12 then ['\\', 'f']
  else if c.toNat < 32 then
    ['\\', 'u', '0', '0', hexDigit (c.toNat / 16), hexDigit (c.toNat % 16)]
  else [c]

def quoted (text : String) : String :=
  "\"" ++ String.ofList (text.toList.flatMap escaped) ++ "\""

end Json

/-- The text of a scalar that stands alone, a string without quotes. -/
def Scalar.text : Scalar → String
  | .null => "null"
  | .bool true => "true"
  | .bool false => "false"
  | .int value => toString value
  | .float value => Layout.data.text value
  | .string value => value

def Scalar.json : Scalar → String
  | .string value => Json.quoted value
  | value => value.text

namespace Value

mutual

def json : Value → String
  | .scalar value => value.json
  | .list items => "[" ++ jsonItems items ++ "]"
  | .dict entries => "\x7b" ++ jsonEntries entries ++ "\x7d"
termination_by structural value => value

def jsonItems : List Value → String
  | [] => ""
  | [item] => item.json
  | item :: rest => item.json ++ "," ++ jsonItems rest
termination_by structural items => items

def jsonEntries : List (String × Value) → String
  | [] => ""
  | [(key, value)] => Json.quoted key ++ ":" ++ value.json
  | (key, value) :: rest => Json.quoted key ++ ":" ++ value.json ++ "," ++ jsonEntries rest
termination_by structural entries => entries

end

/-- The text of a value that stands alone: a string without quotes, all else as data. -/
def text : Value → String
  | .scalar value => value.text
  | value => value.json

end Value

end StageTemplates
