import StageTemplates.Context.Evaluate
import StageTemplates.Proofs.KeyPathGrammar
import StageTemplates.Proofs.TokenCuts

set_option autoImplicit false

/-!
Where no token has a fault, leaving the tokens unchecked changes nothing.
-/
namespace StageTemplates

namespace KeyPath

/-- Without brackets the steps are the words, each behind a point. -/
theorem SpellsSteps.eq_points {words : List (List Char)} {text : List Char}
    (spelled : SpellsSteps words text) (plain : '[' ∉ text) : text = words.flatMap ('.' :: ·) := by
  induction spelled with
  | nil => rfl
  | @point found rest words isWord spelled ih =>
      have later : '[' ∉ rest := fun member =>
        plain (List.mem_cons_of_mem _ (List.mem_append_right found member))
      rw [List.flatMap_cons, ← ih later]
      rfl
  | bracket isWord spelled ih => exact absurd List.mem_cons_self plain

/-- A key path without brackets is its own dotted form. -/
theorem parse_of_no_bracket {expression path : String} (plain : '[' ∉ expression.toList)
    (parsed : parse expression = .ok path) : path = expression := by
  obtain ⟨words, spelled, rfl⟩ := parse_eq_ok_iff.mp parsed
  rw [← String.toList_inj]
  generalize expression.toList = text at spelled plain ⊢
  cases spelled with
  | path isWord others =>
      have later := others.eq_points fun member => plain (List.mem_append_right _ member)
      rw [toList_dotted, ← later]

end KeyPath

/-- A token without fault stands for the same key path, checked or not. -/
theorem keyPath_of_parse {inner : List Char} {path : String}
    (parsed : KeyPath.parse (String.ofList inner) = .ok path) (unchecked : Bool) :
    keyPath unchecked inner = .ok path := by
  cases unchecked with
  | false => exact parsed
  | true =>
      unfold keyPath
      by_cases bracket : inner.contains '[' = true
      · simp only [if_true, bracket, parsed]
      · have plain : '[' ∉ (String.ofList inner).toList := by
          rw [String.toList_ofList]
          simpa using bracket
        simp only [if_true, bracket]
        rw [KeyPath.parse_of_no_bracket plain parsed]
        rfl

namespace Scope

/-- The same scope with tokens checked or not. -/
def withUnchecked (scope : Scope) (unchecked : Bool) : Scope := { scope with unchecked }

variable (scope : Scope) (unchecked : Bool)

theorem tokenNode_withUnchecked {inner : List Char} {path : String}
    (parsed : KeyPath.parse (String.ofList inner) = .ok path) :
    (scope.withUnchecked unchecked).tokenNode inner = scope.tokenNode inner := by
  unfold tokenNode
  rw [keyPath_of_parse parsed, keyPath_of_parse parsed]
  rfl

theorem tokenText_withUnchecked {inner : List Char} {path : String}
    (parsed : KeyPath.parse (String.ofList inner) = .ok path) :
    (scope.withUnchecked unchecked).tokenText inner = scope.tokenText inner := by
  unfold tokenText
  rw [tokenNode_withUnchecked scope unchecked parsed]
  rfl

theorem filled_withUnchecked (pieces : List Piece) (sound : faultIn? pieces = none) :
    (scope.withUnchecked unchecked).filled pieces = scope.filled pieces := by
  induction pieces with
  | nil => rfl
  | cons piece rest ih =>
      cases piece with
      | char c =>
          rw [filled, filled, ih sound]
      | token inner =>
          rw [faultIn?] at sound
          split at sound
          · next path parsed =>
              rw [filled, filled, ih sound, tokenText_withUnchecked scope unchecked parsed]
          · cases sound

theorem resolveText_withUnchecked (text : String) (sound : textFault? text = none) :
    (scope.withUnchecked unchecked).resolveText text = scope.resolveText text := by
  unfold textFault? at sound
  unfold resolveText
  dsimp only
  generalize Piece.ofText text.toList = pieces at sound ⊢
  split
  · next inner alone =>
      rw [Piece.alone?_eq_some_iff.mp alone, faultIn?] at sound
      split at sound
      · next path parsed => rw [tokenNode_withUnchecked scope unchecked parsed]
      · cases sound
  · rw [filled_withUnchecked scope unchecked pieces sound]

mutual

/-- Resolving a value without faults does not depend on whether its tokens are checked. -/
theorem resolve_withUnchecked (value : Value) (sound : value.fault? = none) :
    (scope.withUnchecked unchecked).resolve value = scope.resolve value := by
  match value with
  | .scalar (.string text) =>
      rw [resolve, resolve]
      exact resolveText_withUnchecked scope unchecked text sound
  | .scalar .null => rfl
  | .scalar (.bool _) => rfl
  | .scalar (.int _) => rfl
  | .scalar (.float _) => rfl
  | .list items =>
      rw [Value.fault?] at sound
      rw [resolve, resolve, resolveItems_withUnchecked items sound]
  | .dict entries =>
      rw [Value.fault?] at sound
      rw [resolve, resolve, resolveEntries_withUnchecked [] entries sound]

theorem resolveItems_withUnchecked (items : List Value)
    (sound : Value.faultInItems? items = none) :
    (scope.withUnchecked unchecked).resolveItems items = scope.resolveItems items := by
  match items with
  | [] => rfl
  | item :: rest =>
      rw [Value.faultInItems?] at sound
      split at sound
      · cases sound
      · next whole =>
          rw [resolveItems, resolveItems, resolve_withUnchecked item whole,
            resolveItems_withUnchecked rest sound]

theorem resolveEntries_withUnchecked (done : Entries Value) (entries : List (String × Value))
    (sound : Value.faultInEntries? entries = none) :
    (scope.withUnchecked unchecked).resolveEntries done entries =
      scope.resolveEntries done entries := by
  match entries with
  | [] => rfl
  | (key, value) :: rest =>
      rw [Value.faultInEntries?] at sound
      split at sound
      · cases sound
      · next wholeKey =>
          split at sound
          · cases sound
          · next whole =>
              rw [resolveEntries, resolveEntries,
                resolveText_withUnchecked scope unchecked key wholeKey,
                resolve_withUnchecked value whole]
              have others : ∀ done, (scope.withUnchecked unchecked).resolveEntries done rest =
                  scope.resolveEntries done rest :=
                fun done => resolveEntries_withUnchecked done rest sound
              simp only [others]
              rfl

end

end Scope

end StageTemplates
