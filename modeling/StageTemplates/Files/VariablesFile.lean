import StageTemplates.Error
import StageTemplates.Files.FileSystem
import StageTemplates.Json.Reader
import StageTemplates.Json.Writer
import StageTemplates.Yaml.Reader

set_option autoImplicit false

/-!
The data of a variables file: JSON if its name says so, else YAML.
-/
namespace StageTemplates

namespace Yaml

/-- The text of a scalar that names an entry. -/
def keyScalar : Scalar → String
  | .float value => Layout.mappingKey.text value
  | value => value.text

/-- The name that a key stands for, without its tags. A collection stands for none. -/
def Datum.keyText? : Datum → Option String
  | .scalar value => some (keyScalar value)
  | .tagged _ datum => datum.keyText?
  | .sequence _ => none
  | .mapping _ => none
termination_by structural datum => datum

/-- A scalar as plain data, which has no numbers that are not finite. -/
def plainData : Scalar → Scalar
  | .float value => if value.isNaN || value.isInf then .null else .float value
  | value => value

namespace Datum

mutual

/-- The data without tags and with keys as text; of two keys with one text the later gives the
value. None if a key is a collection. -/
def value? : Datum → Option Value
  | .scalar value => some (.scalar (plainData value))
  | .sequence items => (values? items).map .list
  | .mapping entries => (entriesInto? [] entries).map .dict
  | .tagged _ datum => datum.value?
termination_by structural datum => datum

def values? : List Datum → Option (List Value)
  | [] => some []
  | item :: rest =>
      match item.value? with
      | none => none
      | some value => (values? rest).map (value :: ·)
termination_by structural items => items

def entriesInto? (done : Entries Value) : List (Datum × Datum) → Option (Entries Value)
  | [] => some done
  | (key, datum) :: rest =>
      match key.keyText?, datum.value? with
      | some name, some value => entriesInto? (Entries.put name value done) rest
      | _, _ => none
termination_by structural entries => entries

end

end Datum

end Yaml

namespace VariablesFile

/-- What the text of a file holds; the path says which format it is in, and stands in messages. -/
def parse (path text : String) : Except LoadFailure Value :=
  if Path.isJson path then
    match Json.read text with
    | some value => .ok value
    | none => .error (.malformed path)
  else
    match Yaml.read text with
    | none => .error (.malformed path)
    | some datum =>
        match datum.value? with
        | some value => .ok value
        | none => .error (.compositeKey path)

/-- Reads a file. -/
def load (fs : FileSystem) (path : String) : Except LoadFailure Value :=
  match fs.read path with
  | .error reason => .error (.unreadable path reason)
  | .ok text => parse path text

end VariablesFile

end StageTemplates
