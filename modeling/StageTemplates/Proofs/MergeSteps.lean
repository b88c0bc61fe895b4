import StageTemplates.Context.Load

set_option autoImplicit false

/-!
Every way of bringing in variables is a sequence of single merges. What a merge would bring in
depends on the files and on what is imported already; the variables that are there only decide
whether it goes together with them.
-/
namespace StageTemplates

/-- A file as it is noted among the imports, and the item that names it. -/
structure ImportNote where
  item : String
  path : String
  keys : Option (List String)

/-- What a step comes to before anything is merged: an answer, or variables to merge, with the file
that they are from. -/
inductive MergePlan where
  | answer (outcome : Except ContextError Unit)
  | merging (update : Context) (overwrite : Bool) (file : Option ImportNote)

namespace MergePlan

/-- The variables that are to be merged. -/
def update? : MergePlan → Option Context
  | answer _ => none
  | merging update _ _ => some update

/-- The item that is named when reserved names are touched. -/
def item? : MergePlan → Option String
  | answer _ => none
  | merging _ _ file => file.map ImportNote.item

/-- An error of merging, as it is reported. -/
def blamed : Option ImportNote → ContextError → ContextError
  | some file, error => Context.blamed file.item error
  | none, error => error

/-- The imports with a file, if there is one. -/
def noted (imports : Entries (Option (List String))) :
    Option ImportNote → Entries (Option (List String))
  | some file => Context.addImport imports file.path file.keys
  | none => imports

def run : MergePlan → Context → Except ContextError Unit × Context
  | answer outcome, context => (outcome, context)
  | merging update overwrite file, context =>
      match context.merge update overwrite with
      | (.error error, after) => (.error (blamed file error), after)
      | (.ok _, after) => (.ok (), { after with imports := noted after.imports file })

def ofFile (fs : FileSystem) (item path : String) (keys : Option (List String))
    (overwrite : Bool) : MergePlan :=
  match (Context.ofFile? fs path keys).1 with
  | .error error => answer (.error error)
  | .ok loaded => merging loaded overwrite (some ⟨item, path, keys⟩)

/-- The plan for a file that may be among the imports. -/
def ofPath (fs : FileSystem) (imports : Entries (Option (List String))) (item path : String)
    (keys : Option (List String)) (overwrite : Bool) : MergePlan :=
  match Entries.value? path imports with
  | none => ofFile fs item path keys overwrite
  | some loaded =>
      if loaded.isNone && keys.isNone then answer (.ok ())
      else
        match Context.reloadConflict? item loaded keys with
        | some conflict => answer (.error (.varsAlreadyLoaded conflict))
        | none => ofFile fs item path keys overwrite

/-- The path that an item names, as it is noted among the imports. -/
def pathOf (item wdir : String) : String :=
  Path.normalize (Path.join wdir (Context.importParts item).1)

def ofImport (fs : FileSystem) (imports : Entries (Option (List String))) (item wdir : String)
    (overwrite : Bool) : MergePlan :=
  ofPath fs imports item (pathOf item wdir) (Context.importParts item).2 overwrite

end MergePlan

/-- What a change does, apart from the files it reads. -/
def Change.effect (change : Change) : Except ContextError Unit × Context :=
  (change.outcome, change.context)

theorem Change.effect_eq_iff {change : Change} {outcome : Except ContextError Unit}
    {after : Context} :
    change.effect = (outcome, after) ↔ change.outcome = outcome ∧ change.context = after := by
  rw [effect, Prod.mk.injEq]

namespace Context

theorem effect_importFile (context : Context) (fs : FileSystem) (item path : String)
    (keys : Option (List String)) (overwrite : Bool) :
    (context.importFile fs item path keys overwrite).effect =
      (MergePlan.ofFile fs item path keys overwrite).run context := by
  unfold importFile MergePlan.ofFile
  rcases ofFile? fs path keys with ⟨error | loaded, reads⟩
  · rfl
  · dsimp only [MergePlan.run]
    rcases context.merge loaded overwrite with ⟨error | done, after⟩
    · rfl
    · rfl

theorem effect_mergeFrom (context : Context) (fs : FileSystem) (item wdir : String)
    (overwrite : Bool) :
    (context.mergeFrom fs item wdir overwrite).effect =
      (MergePlan.ofImport fs context.imports item wdir overwrite).run context := by
  unfold mergeFrom MergePlan.ofImport MergePlan.ofPath MergePlan.pathOf
  dsimp only
  generalize Path.normalize (Path.join wdir (importParts item).1) = path
  cases Entries.value? path context.imports with
  | none => exact context.effect_importFile fs item path _ overwrite
  | some loaded =>
      dsimp only
      by_cases known : (loaded.isNone && (importParts item).2.isNone) = true
      · rw [if_pos known, if_pos known]
        rfl
      · rw [if_neg known, if_neg known]
        cases reloadConflict? item loaded (importParts item).2 with
        | some conflict => rfl
        | none => exact context.effect_importFile fs item path _ overwrite

end Context

/-- A single merge: of other variables, or of the file that an item names. An item of `vars` may be
neither. -/
inductive MergeStep where
  | update (update : Context) (overwrite : Bool)
  | file (item wdir : String) (overwrite : Bool)
  | refused (kind : Kind)

namespace MergeStep

def run (fs : FileSystem) (context : Context) : MergeStep → Change
  | update other overwrite =>
      let (outcome, after) := context.merge other overwrite
      ⟨outcome, after, []⟩
  | file item wdir overwrite => context.mergeFrom fs item wdir overwrite
  | refused kind => .failed context (.paramsLoad (.noSource kind))

def plan (fs : FileSystem) (imports : Entries (Option (List String))) : MergeStep → MergePlan
  | update other overwrite => .merging other overwrite none
  | file item wdir overwrite => .ofImport fs imports item wdir overwrite
  | refused kind => .answer (.error (.paramsLoad (.noSource kind)))

theorem effect_run (fs : FileSystem) (context : Context) (step : MergeStep) :
    (step.run fs context).effect = (step.plan fs context.imports).run context := by
  cases step with
  | update other overwrite =>
      dsimp only [run, plan, MergePlan.run]
      rcases context.merge other overwrite with ⟨error | done, after⟩
      · rfl
      · rfl
  | file item wdir overwrite => exact context.effect_mergeFrom fs item wdir overwrite
  | refused kind => rfl

/-- The step for one item of `vars`. -/
def ofItem (wdir stage : String) (index : Nat) : Value → MergeStep
  | .scalar (.string item) => file item wdir false
  | .dict entries =>
      let origin := Origin.ofSource (stage ++ "vars[" ++ toString index ++ "]") true
      update (Context.ofEntries origin entries) false
  | value => refused value.kind

theorem mergeItem_eq_run (context : Context) (fs : FileSystem) (wdir stage : String) (index : Nat)
    (value : Value) :
    context.mergeItem fs wdir stage index value =
      (ofItem wdir stage index value).run fs context := by
  cases value with
  | scalar value => cases value <;> rfl
  | list items => rfl
  | dict entries => rfl

def ofItems (wdir stage : String) : (index : Nat) → List Value → List MergeStep
  | _, [] => []
  | index, value :: rest => ofItem wdir stage index value :: ofItems wdir stage (index + 1) rest

/-- Steps one after another, up to the first that fails. -/
def inTurn (fs : FileSystem) : List MergeStep → Context → Change
  | [], context => .done context
  | step :: rest, context => (step.run fs context).andThen (inTurn fs rest)

theorem mergeItems_eq_inTurn (fs : FileSystem) (wdir stage : String) (index : Nat)
    (items : List Value) :
    Context.mergeItems fs wdir stage index items = inTurn fs (ofItems wdir stage index items) := by
  induction items generalizing index with
  | nil => rfl
  | cons value rest ih =>
      funext context
      rw [Context.mergeItems, ih (index + 1), mergeItem_eq_run]
      rfl

end MergeStep

/-- A call that brings in variables: a single merge, or those of a `vars` section. -/
inductive MergeCall where
  | step (step : MergeStep)
  | vars (items : List Value) (wdir : String) (stage standard : Option String)

namespace MergeCall

def run (fs : FileSystem) (context : Context) : MergeCall → Change
  | step single => single.run fs context
  | vars items wdir stage standard => context.loadVars fs items wdir stage standard

/-- The default file is a step only if it is there. -/
def steps (fs : FileSystem) : MergeCall → List MergeStep
  | step single => [single]
  | vars items wdir stage standard =>
      let first :=
        match standard with
        | some file =>
            if fs.exists? (Path.join wdir file) then [MergeStep.file file wdir false] else []
        | none => []
      let stage :=
        match stage with
        | some name => name ++ "."
        | none => ""
      first ++ MergeStep.ofItems wdir stage 0 items

end MergeCall

namespace Change

theorem andThen_done (change : Change) : change.andThen done = change := by
  obtain ⟨error | success, context, reads⟩ := change
  · rfl
  · simp only [andThen, done, List.append_nil]

end Change

/-- A call does its steps in turn. -/
theorem MergeCall.run_eq_inTurn (fs : FileSystem) (context : Context) (call : MergeCall) :
    call.run fs context = MergeStep.inTurn fs (call.steps fs) context := by
  cases call with
  | step single => exact (Change.andThen_done _).symm
  | vars items wdir stage standard =>
      unfold run steps Context.loadVars
      dsimp only
      rw [MergeStep.mergeItems_eq_inTurn]
      cases standard with
      | none => rfl
      | some file =>
          dsimp only
          split
          · rfl
          · rfl

end StageTemplates
