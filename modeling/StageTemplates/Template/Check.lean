import StageTemplates.Error

set_option autoImplicit false

/-!
Looking for tokens, and for faults in them, through all the text of a value, keys included.
-/
namespace StageTemplates

/-- The key path of a token. Unchecked text stands as it is, but brackets are read where they
can be. -/
def keyPath (unchecked : Bool) (inner : List Char) : Except SyntaxFault String :=
  let expression := String.ofList inner
  if unchecked then
    if inner.contains '[' then
      match KeyPath.parse expression with
      | .ok path => .ok path
      | .error _ => .ok expression
    else .ok expression
  else KeyPath.parse expression

/-- The first fault among the tokens of the pieces. -/
def faultIn? : List Piece → Option SyntaxFault
  | [] => none
  | .char _ :: rest => faultIn? rest
  | .token inner :: rest =>
      match KeyPath.parse (String.ofList inner) with
      | .ok _ => faultIn? rest
      | .error fault => some fault

/-- The first fault among the tokens of a text. -/
def textFault? (text : String) : Option SyntaxFault := faultIn? (Piece.ofText text.toList)

namespace Value

mutual

/-- The first fault among the tokens of a value, a key before what it names. -/
def fault? : Value → Option SyntaxFault
  | .scalar (.string text) => textFault? text
  | .scalar _ => none
  | .list items => faultInItems? items
  | .dict entries => faultInEntries? entries
termination_by structural value => value

def faultInItems? : List Value → Option SyntaxFault
  | [] => none
  | item :: rest =>
      match item.fault? with
      | some fault => some fault
      | none => faultInItems? rest
termination_by structural items => items

def faultInEntries? : List (String × Value) → Option SyntaxFault
  | [] => none
  | (key, value) :: rest =>
      match textFault? key with
      | some fault => some fault
      | none =>
          match value.fault? with
          | some fault => some fault
          | none => faultInEntries? rest
termination_by structural entries => entries

end

mutual

/-- Whether some text of the value holds a token. -/
def interpolated : Value → Bool
  | .scalar (.string text) => hasToken text
  | .scalar _ => false
  | .list items => interpolatedItems items
  | .dict entries => interpolatedEntries entries
termination_by structural value => value

def interpolatedItems : List Value → Bool
  | [] => false
  | item :: rest => item.interpolated || interpolatedItems rest
termination_by structural items => items

def interpolatedEntries : List (String × Value) → Bool
  | [] => false
  | (key, value) :: rest => hasToken key || value.interpolated || interpolatedEntries rest
termination_by structural entries => entries

end

/-- Whether the value is text that holds a token. -/
def isInterpolatedText : Value → Bool
  | .scalar (.string text) => hasToken text
  | _ => false

end Value

end StageTemplates
