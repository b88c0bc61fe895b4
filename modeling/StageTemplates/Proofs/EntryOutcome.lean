import StageTemplates.Proofs.UncheckedTokens
import StageTemplates.Stage.Entry

set_option autoImplicit false

/-!
What an entry resolves to, as a function of the variables and the style. Resolving leaves the
context as it was, whether it succeeds or fails.
-/
namespace StageTemplates

namespace Context

@[simp] theorem style_recorded (context : Context) (reads : List Read) :
    (context.recorded reads).style = context.style := rfl

/-- A context that records nothing is not changed by reads. -/
theorem recorded_of_untracked {context : Context} (untracked : context.tracked = none)
    (reads : List Read) : context.recorded reads = context := by
  cases context
  dsimp only at untracked
  subst untracked
  rfl

end Context

namespace Entry

/-- What resolving fields reads, and what it gives. -/
structure FieldReading where
  reads : List Read
  outcome : Except (String × ContextError) (Entries Value)

/-- Resolving fields, seen apart from any record. -/
def readFields (data : Entries Node) (style : Style) (unchecked : Bool) :
    List (String × Value) → FieldReading
  | [] => ⟨[], .ok []⟩
  | (key, value) :: rest =>
      let reading := (⟨data, style, some key, unchecked⟩ : Scope).resolve value
      match reading.outcome with
      | .error error => ⟨reading.reads, .error (key, error)⟩
      | .ok value =>
          let others := readFields data style unchecked rest
          ⟨reading.reads ++ others.reads, others.outcome.map ((key, value) :: ·)⟩

theorem resolveFields_eq (unchecked : Bool) (fields : List (String × Value))
    (context : Context) :
    resolveFields unchecked fields context =
      ((readFields context.data context.style unchecked fields).outcome,
        context.recorded (readFields context.data context.style unchecked fields).reads) := by
  induction fields generalizing context with
  | nil => rw [resolveFields, readFields, Context.recorded_nil]
  | cons field rest ih =>
      obtain ⟨key, value⟩ := field
      simp only [resolveFields, readFields, Context.resolve, Context.noted, Context.scope]
      generalize (⟨context.data, context.style, some key, unchecked⟩ : Scope).resolve value =
        reading
      obtain ⟨reads, error | value⟩ := reading
      · rfl
      · dsimp only
        rw [ih (context.recorded reads), Context.data_recorded, Context.style_recorded,
          ← Context.recorded_append]
        generalize readFields context.data context.style unchecked rest = others
        obtain ⟨later, failure | fields⟩ := others <;> rfl

/-- Checking sound fields again changes nothing. -/
theorem readFields_unchecked (data : Entries Node) (style : Style) {sectionName name path : String}
    {fields : List (String × Value)} (sound : fieldFault? sectionName name path fields = none) :
    readFields data style true fields = readFields data style false fields := by
  induction fields with
  | nil => rfl
  | cons field rest ih =>
      obtain ⟨key, value⟩ := field
      rw [fieldFault?] at sound
      split at sound
      · cases sound
      · next whole =>
          have same := Scope.resolve_withUnchecked ⟨data, style, some key, false⟩ true value whole
          rw [Scope.withUnchecked] at same
          simp only [readFields, same, ih sound]

/-- The stage that an entry gives, with what is read for it. -/
def outcome (entry : Entry) (data : Entries Node) (style : Style) (unchecked : Bool) :
    Except ResolveError Stage :=
  let reading := readFields data style unchecked entry.fields
  match reading.outcome with
  | .error failure => .error (entry.located failure)
  | .ok fields => .ok ⟨entry.name, fields, Tracked.recordAll {} reading.reads⟩

theorem evaluate_eq (entry : Entry) (context : Context) (unchecked : Bool) :
    entry.evaluate context unchecked =
      (entry.outcome context.data context.style unchecked, context) := by
  simp only [evaluate, outcome, resolveFields_eq]
  have data : context.beginTracking.data = context.data := rfl
  have style : context.beginTracking.style = context.style := rfl
  rw [data, style]
  generalize readFields context.data context.style unchecked entry.fields = reading
  obtain ⟨reads, failure | fields⟩ := reading <;> rfl

/-- The stage that an entry gives if its tokens are sound. -/
def checkedOutcome (entry : Entry) (data : Entries Node) (style : Style) :
    Except ResolveError Stage :=
  match entry.syntaxFault? with
  | some error => .error error
  | none => entry.outcome data style false

theorem resolve_eq (entry : Entry) (context : Context) :
    entry.resolve context = (entry.checkedOutcome context.data context.style, context) := by
  unfold resolve checkedOutcome
  cases entry.syntaxFault? with
  | none => exact evaluate_eq entry context false
  | some error => rfl

theorem outcome_name {entry : Entry} {data : Entries Node} {style : Style} {unchecked : Bool}
    {stage : Stage} (given : entry.outcome data style unchecked = .ok stage) :
    stage.name = entry.name := by
  simp only [outcome] at given
  split at given
  · cases given
  · cases given
    rfl

theorem checkedOutcome_name {entry : Entry} {data : Entries Node} {style : Style}
    {stage : Stage} (given : entry.checkedOutcome data style = .ok stage) :
    stage.name = entry.name := by
  unfold checkedOutcome at given
  split at given
  · cases given
  · exact outcome_name given

end Entry

/-- Whether fields have a fault does not depend on where they stand. -/
theorem fieldFault?_eq_none_iff (sectionName name path : String)
    (fields : List (String × Value)) :
    fieldFault? sectionName name path fields = none ↔
      ∀ field ∈ fields, field.2.fault? = none := by
  induction fields with
  | nil => simp [fieldFault?]
  | cons field rest ih =>
      obtain ⟨key, value⟩ := field
      rw [fieldFault?, List.forall_mem_cons]
      cases found : value.fault? with
      | some fault => simp
      | none => simpa using ih

end StageTemplates
