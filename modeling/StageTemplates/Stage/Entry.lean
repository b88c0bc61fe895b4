import StageTemplates.Context.Evaluate
import StageTemplates.Context.Scoped
import StageTemplates.Stage.Basic

set_option autoImplicit false

/-!
Stages that are written out.
-/
namespace StageTemplates

/-- A stage as written in the file `path`, in one of its sections. -/
structure Entry where
  name : String
  fields : Entries Value
  path : String
  sectionName : String := stagesSection

namespace Entry

/-- Resolves fields in turn. A failure names its field. -/
def resolveFields (unchecked : Bool) : List (String × Value) → Context →
    Except (String × ContextError) (Entries Value) × Context
  | [], context => (.ok [], context)
  | (key, value) :: rest, context =>
      match context.resolve value (some key) unchecked with
      | (.error error, context) => (.error (key, error), context)
      | (.ok value, context) =>
          match resolveFields unchecked rest context with
          | (.error failure, context) => (.error failure, context)
          | (.ok others, context) => (.ok ((key, value) :: others), context)

/-- An error of a field stands at the field, any other at the stage. -/
def located (entry : Entry) (failure : String × ContextError) : ResolveError :=
  let (key, error) := failure
  if error.isFieldError then
    ⟨placeOf [entry.sectionName, entry.name, key], entry.path, .context error⟩
  else ⟨stagePlace entry.name, entry.path, .context error⟩

/-- Resolves the fields while recording what is read. -/
def evaluate (entry : Entry) (context : Context) (unchecked : Bool) :
    Except ResolveError Stage × Context :=
  match resolveFields unchecked entry.fields context.beginTracking with
  | (.error failure, inner) =>
      (.error (entry.located failure), (inner.endTracking context.tracked).2)
  | (.ok fields, inner) =>
      let (tracked, after) := inner.endTracking context.tracked
      (.ok ⟨entry.name, fields, tracked⟩, after)

def syntaxFault? (entry : Entry) : Option ResolveError :=
  fieldFault? entry.sectionName entry.name entry.path entry.fields

/-- Checks the tokens of all fields, then resolves the fields. -/
def resolve (entry : Entry) (context : Context) : Except ResolveError Stage × Context :=
  match entry.syntaxFault? with
  | some error => (.error error, context)
  | none => entry.evaluate context false

end Entry

end StageTemplates
