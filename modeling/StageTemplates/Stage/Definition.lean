import StageTemplates.Stage.Foreach

set_option autoImplicit false

/-!
What stands under a name among the stages of a document.
-/
namespace StageTemplates

inductive Definition where
  | entry (entry : Entry)
  | foreach (template : Foreach)

namespace Definition

def name : Definition → String
  | entry written => written.name
  | foreach template => template.name

/-- The definition that the body of a stage gives: a template if it holds `foreach`, which then
needs a dictionary under `do`. -/
def ofBody? (name : String) (body : Value) (path : String) : Except ResolveError Definition :=
  let invalid := fun (place : List String) (fault : ShapeFault) =>
    (⟨placeOf place, path, .invalidDefinition fault⟩ : ResolveError)
  match body with
  | .dict fields =>
      match Entries.value? "foreach" fields with
      | none => .ok (.entry { name, fields, path })
      | some iterable =>
          match Entries.value? "do" fields with
          | some (.dict body) => .ok (.foreach { name, iterable, body, path })
          | some other =>
              .error (invalid [stagesSection, name, "do"] (.noDictionary other.kind))
          | none => .error (invalid [stagesSection, name] .noBody)
  | other => .error (invalid [stagesSection, name] (.noDictionary other.kind))

end Definition

end StageTemplates
