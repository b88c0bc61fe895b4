import StageTemplates.Context.Basic
import StageTemplates.Template.Check
import StageTemplates.Text.Cut

set_option autoImplicit false

/-!
Resolved stages, and what their definitions have in common.
-/
namespace StageTemplates

/-- A resolved stage, with the variables read for it. -/
structure Stage where
  name : String
  fields : Entries Value
  tracked : Tracked

namespace Stage

/-- The stage under its name. -/
def entry (stage : Stage) : String × Value := (stage.name, .dict stage.fields)

end Stage

/-- The section that holds the stages. -/
def stagesSection : String := "stages"

/-- A place in a document: names joined by points, in quotes. -/
def placeOf (names : List String) : String := "'" ++ ".".intercalate names ++ "'"

/-- A stage as a place. -/
def stagePlace (name : String) : String := "stage '" ++ name ++ "'"

/-- The first fault among the tokens of the fields, placed at its field. -/
def fieldFault? (sectionName name path : String) :
    List (String × Value) → Option ResolveError
  | [] => none
  | (key, value) :: rest =>
      match value.fault? with
      | some fault =>
          some ⟨placeOf [sectionName, name, key], path, .context (.token (.grammar fault))⟩
      | none => fieldFault? sectionName name path rest

/-- A stage name taken apart at the last `@`: its group, and the member if one is named. -/
def splitName (name : String) : String × Option String :=
  match Text.cutLast '@' name.toList with
  | none => (name, none)
  | some (group, []) => (String.ofList group, none)
  | some (group, key) => (String.ofList group, some (String.ofList key))

/-- The name of the stage for one member of a group. -/
def memberName (group key : String) : String := group ++ "@" ++ key

end StageTemplates
