set_option autoImplicit false

/-!
Cutting text at a separating character.
-/
namespace StageTemplates

namespace Text

/-- What stands before and after the first separator. -/
def cutFirst (separator : Char) : List Char → Option (List Char × List Char)
  | [] => none
  | c :: rest =>
      if c = separator then some ([], rest)
      else (cutFirst separator rest).map fun (before, after) => (c :: before, after)

/-- What stands before and after the last separator. -/
def cutLast (separator : Char) : List Char → Option (List Char × List Char)
  | [] => none
  | c :: rest =>
      match cutLast separator rest with
      | some (before, after) => some (c :: before, after)
      | none => if c = separator then some ([], rest) else none

/-- A text is cut at its first separator. -/
theorem cutFirst_append {separator : Char} {before : List Char} (absent : separator ∉ before)
    (after : List Char) :
    cutFirst separator (before ++ separator :: after) = some (before, after) := by
  induction before with
  | nil => simp [cutFirst]
  | cons c rest ih =>
      rw [List.mem_cons, not_or] at absent
      rw [List.cons_append, cutFirst, if_neg (Ne.symm absent.1), ih absent.2]
      rfl

theorem cutFirst_eq_none {separator : Char} {text : List Char} (absent : separator ∉ text) :
    cutFirst separator text = none := by
  induction text with
  | nil => rfl
  | cons c rest ih =>
      rw [List.mem_cons, not_or] at absent
      rw [cutFirst, if_neg (Ne.symm absent.1), ih absent.2]
      rfl

theorem cutLast_eq_some {separator : Char} {text before after : List Char}
    (cut : cutLast separator text = some (before, after)) :
    text = before ++ separator :: after := by
  induction text generalizing before after with
  | nil => simp [cutLast] at cut
  | cons c rest ih =>
      simp only [cutLast] at cut
      split at cut
      · next left right found =>
          simp only [Option.some.injEq, Prod.mk.injEq] at cut
          obtain ⟨rfl, rfl⟩ := cut
          simp [ih found]
      · by_cases same : c = separator
        · simp only [same, if_true, Option.some.injEq, Prod.mk.injEq] at cut
          obtain ⟨rfl, rfl⟩ := cut
          simp [same]
        · simp [same] at cut

end Text

end StageTemplates
