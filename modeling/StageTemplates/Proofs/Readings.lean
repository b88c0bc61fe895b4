import StageTemplates.Context.Evaluate

set_option autoImplicit false

/-!
What readings come to that are put together from others.
-/
namespace StageTemplates

namespace Reading

variable {α β : Type}

/-- A reading followed by another gives something if both do. -/
theorem outcome_bind_eq_ok_iff {reading : Reading α} {next : α → Reading β} {result : β} :
    (reading >>= next).outcome = .ok result ↔
      ∃ value, reading.outcome = .ok value ∧ (next value).outcome = .ok result := by
  change (Reading.bind reading next).outcome = .ok result ↔ _
  cases outcome : reading.outcome with
  | error error =>
      rw [bind_of_error outcome]
      constructor
      · intro impossible
        cases impossible
      · rintro ⟨value, impossible, -⟩
        cases impossible
  | ok value =>
      rw [bind_of_ok outcome]
      constructor
      · intro given
        exact ⟨value, rfl, given⟩
      · rintro ⟨other, same, given⟩
        cases same
        exact given

theorem outcome_ofSyntax_eq_ok_iff {parsed : Except SyntaxFault α} {value : α} :
    (ofSyntax parsed).outcome = .ok value ↔ parsed = .ok value := by
  cases parsed <;> simp [ofSyntax, pure, fail]

theorem outcome_map (f : α → β) (reading : Reading α) :
    (f <$> reading).outcome = reading.outcome.map f := by
  obtain ⟨reads, _ | _⟩ := reading <;> rfl

theorem reads_map (f : α → β) (reading : Reading α) : (f <$> reading).reads = reading.reads := by
  obtain ⟨reads, _ | value⟩ := reading
  · rfl
  · exact List.append_nil reads

end Reading

namespace Scope

theorem tokenNode_eq_ok_iff (scope : Scope) {inner : List Char} {node : Node} :
    (scope.tokenNode inner).outcome = .ok node ↔
      ∃ path, keyPath scope.unchecked inner = .ok path ∧
        (select scope.data path).outcome = .ok node := by
  simp only [tokenNode, Reading.outcome_bind_eq_ok_iff, Reading.outcome_ofSyntax_eq_ok_iff]

end Scope

end StageTemplates
