import StageTemplates.Error
import StageTemplates.Json.Writer
import StageTemplates.Shell.Quoted
import StageTemplates.Shell.Style
import StageTemplates.Text.Blank

set_option autoImplicit false

/-!
A value within text: a scalar as its text, a dictionary as the arguments of a command.
-/
namespace StageTemplates

namespace Value

/-- The name of an entry below the entry `path`. -/
def childName (path : Option String) (key : String) : String :=
  match path with
  | some path => path ++ "." ++ key
  | none => key

mutual

/-- The entries of nested dictionaries under names joined by points, added to those found before.
An empty dictionary leaves none. -/
def flattenInto (path : String) (found : Entries Value) : Value → Entries Value
  | .dict entries => flattenEntries (some path) found entries
  | .scalar value => Entries.put path (.scalar value) found
  | .list items => Entries.put path (.list items) found
termination_by structural value => value

def flattenEntries (path : Option String) (found : Entries Value) :
    List (String × Value) → Entries Value
  | [] => found
  | (key, value) :: rest =>
      flattenEntries path (flattenInto (childName path key) found value) rest
termination_by structural entries => entries

end

def flatten (entries : List (String × Value)) : Entries Value := flattenEntries none [] entries

end Value

namespace Shell

/-- An item of a list as a word. -/
def itemWord (key : String) : Value → Except TokenError String
  | .scalar (.string text) => .ok (quoted text)
  | .scalar value => .ok value.text
  | _ => .error (.nestedIterable key)

/-- The items of a list as words. -/
def itemWords (key : String) : List Value → Except TokenError (List String)
  | [] => .ok []
  | item :: rest =>
      match itemWord key item with
      | .error error => .error error
      | .ok word =>
          match itemWords key rest with
          | .error error => .error error
          | .ok words => .ok (word :: words)

/-- The words for one entry. -/
def entryWords (style : Style) (key : String) : Value → Except TokenError (List String)
  | .scalar (.bool true) => .ok ["--" ++ key]
  | .scalar (.bool false) =>
      .ok (match style.bool with
        | .booleanOptional => ["--no-" ++ key]
        | .storeTrue => [])
  | .scalar (.string text) => .ok ["--" ++ key, quoted text]
  | .scalar value => .ok ["--" ++ key, value.text]
  | .list items =>
      match itemWords key items with
      | .error error => .error error
      | .ok words =>
          .ok (match style.list, words with
            | _, [] => []
            | .append, words => words.flatMap fun word => ["--" ++ key, word]
            | .nargs, words => ("--" ++ key) :: words)
  | .dict _ => .ok []

/-- The words for flattened entries, in their order. -/
def words (style : Style) : Entries Value → Except TokenError (List String)
  | [] => .ok []
  | (key, value) :: rest =>
      match entryWords style key value with
      | .error error => .error error
      | .ok first =>
          match words style rest with
          | .error error => .error error
          | .ok others => .ok (first ++ others)

/-- Words with a blank after each, but for white space at the end. -/
def line (words : List String) : String :=
  Text.trimEnd (String.join (words.map (· ++ " ")))

/-- The arguments for a dictionary. -/
def arguments (style : Style) (entries : List (String × Value)) : Except TokenError String :=
  match words style (Value.flatten entries) with
  | .ok words => .ok (line words)
  | .error error => .error error

end Shell

namespace Value

/-- A value as it stands within text. -/
def render (style : Style) : Value → Except TokenError String
  | .scalar value => .ok value.text
  | .dict entries => Shell.arguments style entries
  | .list _ => .error (.nonPrimitive .list)

/-- The field whose dictionaries are written as arguments. -/
def commandField : String := "cmd"

/-- Scalars may stand within text of any field, dictionaries within that of a command. -/
def embedError? (field : Option String) : Value → Option TokenError
  | .scalar _ => none
  | .dict _ => if field = some commandField then none else some (.nonPrimitive .dict)
  | .list _ => some (.nonPrimitive .list)

end Value

end StageTemplates
