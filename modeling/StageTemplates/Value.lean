import StageTemplates.Entries

set_option autoImplicit false

/-!
Plain data: scalars, lists and dictionaries whose entries keep their order.
-/
namespace StageTemplates

/-- A value without parts. Integers are those of 64 bits, signed or not. -/
inductive Scalar where
  | null
  | bool (value : Bool)
  | int (value : Int)
  | float (value : Float)
  | string (value : String)
deriving Inhabited

inductive Value where
  | scalar (value : Scalar)
  | list (items : List Value)
  | dict (entries : List (String × Value))
deriving Inhabited

/-- What a message calls the type of a value. -/
inductive Kind where
  | null | bool | int | float | str | list | dict
deriving DecidableEq, Repr

def Kind.name : Kind → String
  | .null => "null"
  | .bool => "bool"
  | .int => "int"
  | .float => "float"
  | .str => "str"
  | .list => "list"
  | .dict => "dict"

namespace Scalar

def kind : Scalar → Kind
  | .null => .null
  | .bool _ => .bool
  | .int _ => .int
  | .float _ => .float
  | .string _ => .str

/-- Equality of scalars: an integer never equals a float. -/
def same : Scalar → Scalar → Bool
  | .null, .null => true
  | .bool a, .bool b => a == b
  | .int a, .int b => a == b
  | .float a, .float b => a == b
  | .string a, .string b => a == b
  | _, _ => false

end Scalar

namespace Value

abbrev null : Value := .scalar .null
abbrev bool (value : Bool) : Value := .scalar (.bool value)
abbrev int (value : Int) : Value := .scalar (.int value)
abbrev string (value : String) : Value := .scalar (.string value)

def kind : Value → Kind
  | .scalar value => value.kind
  | .list _ => .list
  | .dict _ => .dict

def isScalar : Value → Bool
  | .scalar _ => true
  | _ => false

def isDict : Value → Bool
  | .dict _ => true
  | _ => false

mutual

/-- Equality of values: the order of a dictionary's entries does not count. -/
def same : Value → Value → Bool
  | .scalar a, .scalar b => a.same b
  | .list a, .list b => sameItems a b
  | .dict a, .dict b => a.length == b.length && sameEntries a b
  | _, _ => false
termination_by structural value => value

def sameItems : List Value → List Value → Bool
  | [], [] => true
  | a :: as, b :: bs => same a b && sameItems as bs
  | _, _ => false
termination_by structural items => items

/-- Every entry on the left is an entry on the right. -/
def sameEntries : List (String × Value) → List (String × Value) → Bool
  | [], _ => true
  | (key, a) :: as, bs =>
      (match Entries.value? key bs with
        | some b => same a b
        | none => false) && sameEntries as bs
termination_by structural entries => entries

end

end Value

end StageTemplates
