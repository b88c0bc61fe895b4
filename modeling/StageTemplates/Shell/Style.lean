import StageTemplates.Value

set_option autoImplicit false

/-!
How the entries of a dictionary are written as arguments of a command.
-/
namespace StageTemplates

/-- What is written for a switch that is off. -/
inductive BoolStyle where
  /-- Nothing. -/
  | storeTrue
  /-- The switch with `no` before its name. -/
  | booleanOptional
deriving DecidableEq, Repr, Inhabited

/-- How the items of a list are written. -/
inductive ListStyle where
  /-- All after one mention of the key. -/
  | nargs
  /-- Each after a mention of the key. -/
  | append
deriving DecidableEq, Repr, Inhabited

structure Style where
  bool : BoolStyle := .storeTrue
  list : ListStyle := .nargs
deriving DecidableEq, Repr, Inhabited

namespace BoolStyle

def name : BoolStyle → String
  | storeTrue => "store_true"
  | booleanOptional => "boolean_optional"

def named? (name : String) : Option BoolStyle :=
  if name = storeTrue.name then some storeTrue
  else if name = booleanOptional.name then some booleanOptional
  else none

end BoolStyle

namespace ListStyle

def name : ListStyle → String
  | nargs => "nargs"
  | append => "append"

def named? (name : String) : Option ListStyle :=
  if name = nargs.name then some nargs
  else if name = append.name then some append
  else none

end ListStyle

namespace Style

/-- The name of a choice: a string, or the one key of a dictionary that holds null. -/
def choice? : Value → Option String
  | .scalar (.string name) => some name
  | .dict [(name, .scalar .null)] => some name
  | _ => none

/-- A choice where one is written, else the default. -/
def chosen? {α : Type} (standard : α) (named? : String → Option α) :
    Option Value → Option α
  | none => some standard
  | some value => (choice? value).bind named?

/-- A style from the section that sets it: by name, other names being ignored, or both choices by
position. -/
def ofValue? : Value → Option Style
  | .dict entries => do
      let bool ← chosen? .storeTrue BoolStyle.named? (Entries.value? "bool" entries)
      let list ← chosen? .nargs ListStyle.named? (Entries.value? "list" entries)
      return ⟨bool, list⟩
  | .list items =>
      if 2 < items.length then none
      else do
        let bool ← chosen? .storeTrue BoolStyle.named? items[0]?
        let list ← chosen? .nargs ListStyle.named? items[1]?
        return ⟨bool, list⟩
  | .scalar _ => none

end Style

end StageTemplates
