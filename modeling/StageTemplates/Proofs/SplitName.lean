import StageTemplates.Stage.Basic

set_option autoImplicit false

/-!
Stage names taken apart. A key is never empty and holds no `@`; a name that ends in `@` falls to
the group before it.
-/
namespace StageTemplates

namespace Text

theorem cutLast_eq_none_iff {separator : Char} {text : List Char} :
    cutLast separator text = none ↔ separator ∉ text := by
  induction text with
  | nil => simp [cutLast]
  | cons c rest ih =>
      rw [cutLast, List.mem_cons, not_or, ← ih]
      cases cutLast separator rest with
      | none =>
          by_cases same : c = separator
          · simp [same]
          · simp [same, Ne.symm same]
      | some cut => simp

theorem cutLast_append {separator : Char} {after : List Char} (absent : separator ∉ after)
    (before : List Char) :
    cutLast separator (before ++ separator :: after) = some (before, after) := by
  induction before with
  | nil => rw [List.nil_append, cutLast, cutLast_eq_none_iff.mpr absent, if_pos rfl]
  | cons c rest ih => rw [List.cons_append, cutLast, ih]

/-- After the last separator there is none. -/
theorem not_mem_of_cutLast {separator : Char} {text before after : List Char}
    (cut : cutLast separator text = some (before, after)) : separator ∉ after := by
  induction text generalizing before with
  | nil => cases cut
  | cons c rest ih =>
      rw [cutLast] at cut
      split at cut
      · next left right found =>
          cases cut
          exact ih found
      · next none =>
          split at cut
          · cases cut
            exact cutLast_eq_none_iff.mp none
          · cases cut

end Text

theorem toList_memberName (group key : String) :
    (memberName group key).toList = group.toList ++ '@' :: key.toList := by
  simp [memberName, String.toList_append]

theorem memberName_empty (group : String) : memberName group "" = group ++ "@" := by
  rw [memberName, String.append_empty]

theorem splitName_of_not_mem {name : String} (plain : '@' ∉ name.toList) :
    splitName name = (name, none) := by
  rw [splitName, Text.cutLast_eq_none_iff.mpr plain]

theorem splitName_memberName {key : String} (plain : '@' ∉ key.toList) (group : String) :
    splitName (memberName group key) = (group, if key = "" then none else some key) := by
  rw [splitName, toList_memberName, Text.cutLast_append plain]
  by_cases empty : key = ""
  · subst empty
    simp
  · rw [if_neg empty]
    cases chars : key.toList with
    | nil => exact absurd (String.toList_eq_nil_iff.mp chars) empty
    | cons c rest =>
        dsimp only
        rw [String.ofList_toList, ← chars, String.ofList_toList]

/-- A name without a key is a group, or a group with the mark of an empty key. -/
theorem splitName_eq_none_iff {name group : String} :
    splitName name = (group, none) ↔
      name = group ∧ '@' ∉ group.toList ∨ name = group ++ "@" := by
  constructor
  · intro given
    rw [splitName] at given
    split at given
    · next uncut =>
        cases given
        exact Or.inl ⟨rfl, Text.cutLast_eq_none_iff.mp uncut⟩
    · next before cut =>
        cases given
        apply Or.inr
        rw [← memberName_empty, ← String.toList_inj, toList_memberName, Text.cutLast_eq_some cut]
        simp
    · cases given
  · rintro (⟨rfl, plain⟩ | rfl)
    · exact splitName_of_not_mem plain
    · rw [← memberName_empty, splitName_memberName (by simp), if_pos rfl]

theorem splitName_eq_some_iff {name group key : String} :
    splitName name = (group, some key) ↔
      name = memberName group key ∧ key ≠ "" ∧ '@' ∉ key.toList := by
  constructor
  · intro given
    rw [splitName] at given
    split at given
    · cases given
    · cases given
    · next before after filled cut =>
        cases given
        refine ⟨?_, ?_, ?_⟩
        · rw [← String.toList_inj, toList_memberName, Text.cutLast_eq_some cut]
          simp
        · intro empty
          exact filled (by simpa using empty)
        · simpa using Text.not_mem_of_cutLast cut
  · rintro ⟨rfl, nonempty, plain⟩
    rw [splitName_memberName plain, if_neg nonempty]

end StageTemplates
