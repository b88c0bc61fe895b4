import StageTemplates.Proofs.EntryOutcome
import StageTemplates.Proofs.TokenReads

set_option autoImplicit false

/-!
Why an entry fails. Its error is that of a field, the first with a token that is no key path or else
the first that does not resolve, and it stands at that field.
-/
namespace StageTemplates

theorem ContextError.isFieldError_iff {error : ContextError} :
    error.isFieldError = true ↔
      (∃ key, error = .keyNotInContext key) ∨ ∃ cause, error = .token cause := by
  cases error <;> simp [isFieldError]

/-- A value that cannot be resolved has a field at fault, never the whole stage. -/
theorem Scope.isFieldError_of_resolve {scope : Scope} {value : Value} {error : ContextError}
    (failed : (scope.resolve value).outcome = .error error) : error.isFieldError = true := by
  have follows := scope.follows_resolve value
  unfold Reading.Follows at follows
  rwa [failed] at follows

/-- The place of a field is no stage. -/
theorem placeOf_ne_stagePlace (names : List String) (stage : String) :
    placeOf names ≠ stagePlace stage := by
  intro same
  have heads := congrArg (fun text => text.toList.head?) same
  simp [placeOf, stagePlace] at heads

namespace Entry

/-- The error of a field, at the field. -/
def fieldError (entry : Entry) (key : String) (cause : ContextError) : ResolveError :=
  ⟨placeOf [entry.sectionName, entry.name, key], entry.path, .context cause⟩

theorem located_of_isFieldError (entry : Entry) (key : String) {cause : ContextError}
    (field : cause.isFieldError = true) : entry.located (key, cause) = entry.fieldError key cause :=
  if_pos field

theorem syntaxFault?_eq_findSome? (entry : Entry) :
    entry.syntaxFault? = entry.fields.findSome? fun field =>
      field.2.fault?.map fun fault => entry.fieldError field.1 (.token (.grammar fault)) := by
  unfold syntaxFault?
  induction entry.fields with
  | nil => rfl
  | cons field rest ih =>
      obtain ⟨key, value⟩ := field
      rw [fieldFault?, List.findSome?_cons]
      dsimp only
      cases value.fault? with
      | none => exact ih
      | some fault => rfl

theorem syntaxFault?_eq_none_iff (entry : Entry) :
    entry.syntaxFault? = none ↔ ∀ field ∈ entry.fields, field.2.Sound := by
  rw [syntaxFault?, fieldFault?_eq_none_iff]
  exact forall₂_congr fun field _ => field.2.fault?_eq_none_iff

/-- The error is the fault of the first field with a token that is no key path. -/
def FailsCheck (entry : Entry) (error : ResolveError) : Prop :=
  ∃ before key value after fault, entry.fields = before ++ (key, value) :: after ∧
    (∀ earlier ∈ before, earlier.2.Sound) ∧ value.FirstFault fault ∧
    error = entry.fieldError key (.token (.grammar fault))

theorem syntaxFault?_eq_some_iff {entry : Entry} {error : ResolveError} :
    entry.syntaxFault? = some error ↔ entry.FailsCheck error := by
  rw [syntaxFault?_eq_findSome?, List.findSome?_eq_some_iff]
  simp only [Option.map_eq_some_iff, Option.map_eq_none_iff, Value.fault?_eq_none_iff,
    Value.fault?_eq_some_iff]
  constructor
  · rintro ⟨before, ⟨key, value⟩, after, split, ⟨fault, first, rfl⟩, sound⟩
    exact ⟨before, key, value, after, fault, split, sound, first, rfl⟩
  · rintro ⟨before, key, value, after, fault, split, sound, first, rfl⟩
    exact ⟨before, (key, value), after, split, ⟨fault, first, rfl⟩, sound⟩

section Fields

variable {data : Entries Node} {style : Style} {unchecked : Bool}

/-- What a field resolves to, under its name. -/
def fieldOutcome (data : Entries Node) (style : Style) (unchecked : Bool)
    (field : String × Value) : Except (String × ContextError) (String × Value) :=
  match ((⟨data, style, some field.1, unchecked⟩ : Scope).resolve field.2).outcome with
  | .ok value => .ok (field.1, value)
  | .error error => .error (field.1, error)

theorem fieldOutcome_succeeds_iff {field : String × Value} :
    (∃ given, fieldOutcome data style unchecked field = .ok given) ↔
      ∃ value, ((⟨data, style, some field.1, unchecked⟩ : Scope).resolve field.2).outcome =
        .ok value := by
  unfold fieldOutcome
  cases ((⟨data, style, some field.1, unchecked⟩ : Scope).resolve field.2).outcome <;> simp

theorem fieldOutcome_eq_error_iff {field : String × Value} {key : String} {cause : ContextError} :
    fieldOutcome data style unchecked field = .error (key, cause) ↔
      field.1 = key ∧
        ((⟨data, style, some field.1, unchecked⟩ : Scope).resolve field.2).outcome =
          .error cause := by
  unfold fieldOutcome
  cases ((⟨data, style, some field.1, unchecked⟩ : Scope).resolve field.2).outcome <;> simp

theorem readFields_outcome (fields : List (String × Value)) :
    (readFields data style unchecked fields).outcome =
      fields.mapM (fieldOutcome data style unchecked) := by
  induction fields with
  | nil => rfl
  | cons field rest ih =>
      obtain ⟨key, value⟩ := field
      rw [readFields, List.mapM_cons, fieldOutcome]
      dsimp only
      cases ((⟨data, style, some key, unchecked⟩ : Scope).resolve value).outcome with
      | error error => rfl
      | ok resolved =>
          dsimp only
          rw [ih]
          generalize rest.mapM (fieldOutcome data style unchecked) = others
          cases others <;> rfl

/-- The failure is that of the first field that fails. -/
theorem readFields_eq_error_iff {fields : List (String × Value)} {key : String}
    {cause : ContextError} :
    (readFields data style unchecked fields).outcome = .error (key, cause) ↔
      ∃ before value after, fields = before ++ (key, value) :: after ∧
        (∀ earlier ∈ before, ∃ given,
          ((⟨data, style, some earlier.1, unchecked⟩ : Scope).resolve earlier.2).outcome =
            .ok given) ∧
        ((⟨data, style, some key, unchecked⟩ : Scope).resolve value).outcome = .error cause := by
  rw [readFields_outcome, mapM_eq_error_iff]
  simp only [fieldOutcome_succeeds_iff, fieldOutcome_eq_error_iff]
  constructor
  · rintro ⟨before, ⟨key, value⟩, after, split, succeed, rfl, failed⟩
    exact ⟨before, value, after, split, succeed, failed⟩
  · rintro ⟨before, value, after, split, succeed, failed⟩
    exact ⟨before, (key, value), after, split, succeed, rfl, failed⟩

theorem outcome_eq_error_iff {entry : Entry} {error : ResolveError} :
    entry.outcome data style unchecked = .error error ↔
      ∃ key cause, (readFields data style unchecked entry.fields).outcome = .error (key, cause) ∧
        error = entry.fieldError key cause := by
  unfold outcome
  dsimp only
  cases read : (readFields data style unchecked entry.fields).outcome with
  | ok values => simp
  | error failure =>
      obtain ⟨key, cause⟩ := failure
      obtain ⟨-, value, -, -, -, failed⟩ := readFields_eq_error_iff.mp read
      dsimp only
      rw [entry.located_of_isFieldError key (Scope.isFieldError_of_resolve failed)]
      simp [eq_comm]

end Fields

/-- The error is that of the first field that the context does not resolve. -/
def FailsAt (entry : Entry) (context : Context) (error : ResolveError) : Prop :=
  ∃ before key value after cause, entry.fields = before ++ (key, value) :: after ∧
    (∀ earlier ∈ before, ∃ given,
      (context.resolve earlier.2 (some earlier.1) false).1 = .ok given) ∧
    (context.resolve value (some key) false).1 = .error cause ∧
    error = entry.fieldError key cause

theorem outcome_eq_error_iff_failsAt {entry : Entry} {context : Context} {error : ResolveError} :
    entry.outcome context.data context.style false = .error error ↔
      entry.FailsAt context error := by
  rw [outcome_eq_error_iff]
  simp only [readFields_eq_error_iff]
  constructor
  · rintro ⟨key, cause, ⟨before, value, after, split, succeed, failed⟩, rfl⟩
    exact ⟨before, key, value, after, cause, split, succeed, failed, rfl⟩
  · rintro ⟨before, key, value, after, cause, split, succeed, failed, rfl⟩
    exact ⟨key, cause, ⟨before, value, after, split, succeed, failed⟩, rfl⟩

theorem resolve_eq_error_iff {entry : Entry} {context : Context} {error : ResolveError} :
    (entry.resolve context).1 = .error error ↔
      entry.FailsCheck error ∨
        (∀ field ∈ entry.fields, field.2.Sound) ∧ entry.FailsAt context error := by
  rw [resolve_eq, checkedOutcome, ← syntaxFault?_eq_none_iff, ← outcome_eq_error_iff_failsAt,
    ← syntaxFault?_eq_some_iff]
  cases entry.syntaxFault? <;> simp

/-- An entry fails for the first field with a token that is no key path. If all tokens are key
paths, it fails for the first field that does not resolve, with the error of the field. In either
case a variable is missing or a token is at fault, and the error stands at the field, not at the
stage. Whether it fails or not, the context stays as it was. -/
theorem resolve_fails_at_field (entry : Entry) (context : Context) :
    (entry.resolve context).2 = context ∧
    ∀ error,
      ((entry.resolve context).1 = .error error ↔
        entry.FailsCheck error ∨
          (∀ field ∈ entry.fields, field.2.Sound) ∧ entry.FailsAt context error) ∧
      ((entry.resolve context).1 = .error error →
        (∃ cause, error.cause = .context cause ∧
          ((∃ key, cause = .keyNotInContext key) ∨ ∃ fault, cause = .token fault)) ∧
        ∀ stage, error.location ≠ stagePlace stage) := by
  refine ⟨by rw [resolve_eq], fun error => ⟨resolve_eq_error_iff, fun failed => ?_⟩⟩
  have placed : ∃ key cause, error = entry.fieldError key cause ∧ cause.isFieldError = true := by
    rcases resolve_eq_error_iff.mp failed with
      ⟨-, key, -, -, fault, -, -, -, same⟩ | ⟨-, -, key, value, -, cause, -, -, failed, same⟩
    · exact ⟨key, _, same, rfl⟩
    · exact ⟨key, cause, same, Scope.isFieldError_of_resolve failed⟩
  obtain ⟨key, cause, rfl, field⟩ := placed
  exact ⟨⟨cause, rfl, ContextError.isFieldError_iff.mp field⟩, placeOf_ne_stagePlace _⟩

/-- The key of the dictionary ends with a point. -/
def reportDeps : Value :=
  .list [.string "$\x7blr\x7d", .dict [("$\x7bdepth.\x7d", .scalar .null)]]

/-- All three fields fail, the first for a variable that is missing. -/
def reportEntry : Entry :=
  { name := "report", path := "dvc.yaml"
    fields := [("cmd", .string "plot $\x7bmissing\x7d"), ("deps", reportDeps),
      ("outs", .string "$\x7b[0]\x7d")] }

/-- The entry without the fields that fail the check. -/
def plotEntry : Entry := { reportEntry with fields := reportEntry.fields.take 1 }

theorem reportEntry_fails_at_field :
    let context : Context :=
      { Context.ofEntries {} [("lr", .int 1)] with tracked := some ⟨["seed"], []⟩ }
    (∃ fault, (reportEntry.resolve context).1 =
        .error ⟨"'stages.report.deps'", "dvc.yaml", .context (.token (.grammar fault))⟩ ∧
      reportEntry.FailsCheck
        ⟨"'stages.report.deps'", "dvc.yaml", .context (.token (.grammar fault))⟩) ∧
    (plotEntry.resolve context).1 =
      .error ⟨"'stages.report.cmd'", "dvc.yaml", .context (.keyNotInContext "missing")⟩ ∧
    "'stages.report.cmd'" ≠ stagePlace "report" ∧ (plotEntry.resolve context).2 = context := by
  intro context
  have check : (reportEntry.resolve context).1 =
      .error ⟨"'stages.report.deps'", "dvc.yaml",
        .context (.token (.grammar ⟨"depth.", 5, .endOfText⟩))⟩ := by cbv
  have absent : (plotEntry.resolve context).1 =
      .error ⟨"'stages.report.cmd'", "dvc.yaml", .context (.keyNotInContext "missing")⟩ := by
    rw [resolve_eq]
    cbv
  obtain ⟨same, failure⟩ := resolve_fails_at_field plotEntry context
  refine ⟨⟨_, check, ?_⟩, absent, ((failure _).2 absent).2 "report", same⟩
  rcases ((resolve_fails_at_field reportEntry context).2 _).1.mp check with fails | ⟨sound, -⟩
  · exact fails
  · have whole : reportDeps.Sound := sound _ (.tail _ (.head _))
    have fault : reportDeps.fault?.isSome = true := by cbv
    exact absurd ((Value.fault?_eq_none_iff _).mpr whole) (Option.ne_none_iff_isSome.mpr fault)

end Entry

end StageTemplates
