import Mathlib.Order.Bounds.Basic
import StageTemplates.Proofs.KeyPathGrammar

set_option autoImplicit false

/-!
Where a text stops being a key path: behind its longest beginning that is one. The fault is shown
below the character that stands there.
-/
namespace StageTemplates

namespace KeyPath

/-- How long the key paths are that a text begins with. -/
def pathLengths (text : List Char) : Set Nat :=
  {length | ∃ found part, Spells found part ∧ part <+: text ∧ part.length = length}

variable {expression : String}

theorem steps_of_words_error {first rest : List Char} {offset : Nat} (isWord : IsWord first)
    (ends : word rest = []) (same : expression.toList = first ++ rest)
    (failed : words expression = .error ⟨expression, offset, .endOfText⟩) :
    steps 0 first.length rest = .error offset := by
  rw [words_append isWord ends same] at failed
  cases reached : steps 0 first.length rest with
  | ok others =>
      rw [reached] at failed
      cases failed
  | error place =>
      rw [reached] at failed
      cases failed
      rfl

/-- No key path that a text begins with goes on behind the place of the fault. -/
theorem Spells.length_le {found : List (List Char)} {part : List Char} {offset : Nat}
    (spelled : Spells found part) (begins : part <+: expression.toList)
    (failed : words expression = .error ⟨expression, offset, .endOfText⟩) :
    part.length ≤ offset := by
  obtain ⟨after, split⟩ := begins
  cases spelled with
  | @path first rest others isWord steps =>
      by_cases more : rest = []
      · -- The only word of the part may go on in the text.
        obtain ⟨longer, left, rfl, whole, ends⟩ := exists_longest_word isWord after
        subst more
        rw [List.append_nil, ← List.append_assoc] at split
        have bound := place_le_of_steps (steps_of_words_error whole ends split.symm failed)
        rw [List.length_append] at bound
        rw [List.append_nil]
        omega
      · rw [List.append_assoc] at split
        have ends := steps.word_append_eq_nil more after
        have bound := steps.place_le (steps_of_words_error isWord ends split.symm failed)
        rwa [List.length_append]

/-- A text that begins with no word begins with no key path. -/
theorem pathLengths_of_word_eq_nil {text : List Char} (none : word text = []) :
    pathLengths text = ∅ := by
  refine Set.eq_empty_of_forall_notMem ?_
  rintro length ⟨found, part, spelled, ⟨after, rfl⟩, -⟩
  cases spelled with
  | path isWord steps =>
      rw [List.append_assoc, word_append isWord] at none
      exact isWord.1 (List.append_eq_nil_iff.mp none).1

/-- The fault lies in the text, right behind the longest key path that the text begins with. -/
theorem fault_of_parse_error {fault : SyntaxFault} (rejected : parse expression = .error fault) :
    fault.expression = expression ∧ fault.offset ≤ expression.toList.length ∧
      (fault.expected = .key ∧ fault.offset = 0 ∧ pathLengths expression.toList = ∅ ∨
        fault.expected = .endOfText ∧
          IsGreatest (pathLengths expression.toList) fault.offset) := by
  have failed := parse_eq_error_iff.mp rejected
  rcases words_cases expression with
    ⟨found, -, run⟩ | ⟨none, run⟩ | ⟨found, before, after, split, -, spelled, run⟩
  · cases failed.symm.trans run
  · cases failed.symm.trans run
    exact ⟨rfl, Nat.zero_le _, Or.inl ⟨rfl, rfl, pathLengths_of_word_eq_nil none⟩⟩
  · cases failed.symm.trans run
    have begins : before <+: expression.toList := ⟨after, split.symm⟩
    refine ⟨rfl, begins.length_le, Or.inr ⟨rfl, ⟨found, before, spelled, begins, rfl⟩, ?_⟩⟩
    rintro length ⟨others, part, reads, starts, rfl⟩
    exact reads.length_le starts run

theorem toList_embrace (expression : String) :
    (embrace expression).toList = '$' :: '\x7b' :: (expression.toList ++ ['\x7d']) := by
  simp [embrace]

/-- A fault not behind the end of the expression has a character of the token above it. -/
theorem exists_char_at_place {fault : SyntaxFault}
    (inside : fault.offset ≤ fault.expression.toList.length) :
    ∃ c, fault.text.toList[fault.place]? = some c := by
  have within : fault.place < fault.text.toList.length := by
    rw [SyntaxFault.text, toList_embrace, SyntaxFault.place]
    simp only [List.length_cons, List.length_append, List.length_nil]
    omega
  exact ⟨_, List.getElem?_eq_getElem within⟩

/-- The fault of a text that is no key path lies behind the longest key path that the text begins
with, or at the beginning if there is none. The character found is the one at that place in the
token, and the caret stands below it. -/
theorem parse_fault {fault : SyntaxFault} (rejected : parse expression = .error fault) :
    (fault.expected.message = "Expected key" ∧ fault.offset = 0 ∧
        pathLengths expression.toList = ∅ ∨
      fault.expected.message = "Expected end of text" ∧
        IsGreatest (pathLengths expression.toList) fault.offset) ∧
    fault.place = fault.offset + 2 ∧
    ∃ c, (embrace expression).toList[fault.place]? = some c ∧
      fault.found = "'" ++ String.singleton c ++ "'" ∧
      fault.message =
        embrace expression ++ "\n" ++
        String.ofList (List.replicate fault.place ' ') ++ "^\n" ++
        "ParseException: " ++ fault.expected.message ++ ", found " ++ fault.found ++
        "  (at char " ++ toString fault.place ++ "), (line:1, col:" ++
        toString (fault.place + 1) ++ ")" := by
  obtain ⟨same, inside, located⟩ := fault_of_parse_error rejected
  obtain ⟨c, there⟩ := exists_char_at_place (same ▸ inside)
  refine ⟨?_, rfl, c, ?_, ?_, ?_⟩
  · rcases located with ⟨expected, start, none⟩ | ⟨expected, greatest⟩
    · exact Or.inl ⟨by rw [expected]; rfl, start, none⟩
    · exact Or.inr ⟨by rw [expected]; rfl, greatest⟩
  · rwa [SyntaxFault.text, same] at there
  · rw [SyntaxFault.found, there]
  · rw [SyntaxFault.message, SyntaxFault.text, same]

/-- The bracket has no end, and the point before it belongs to no step. -/
theorem unclosed_parse_fault :
    ∃ fault, parse "syntax.[error" = .error fault ∧ fault.found = "'.'" ∧ fault.place = 8 ∧
      IsGreatest (pathLengths "syntax.[error".toList) 6 := by
  have rejected : parse "syntax.[error" = .error ⟨"syntax.[error", 6, .endOfText⟩ := by cbv
  obtain ⟨place, -, c, there, found, -⟩ := parse_fault rejected
  refine ⟨_, rejected, ?_, rfl, ?_⟩
  · have same : c = '.' := by
      have known : (embrace "syntax.[error").toList[8]? = some '.' := by cbv
      exact Option.some.inj (there.symm.trans known)
    rw [found, same]
    rfl
  · rcases place with ⟨impossible, -⟩ | ⟨-, greatest⟩
    · exact absurd impossible (by decide)
    · exact greatest

end KeyPath

end StageTemplates
