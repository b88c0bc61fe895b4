import Mathlib.Data.List.Basic
import StageTemplates.Template.Piece

set_option autoImplicit false

/-!
How a text is cut: character by character, and past a whole token where one opens.
-/
namespace StageTemplates

namespace Piece

theorem ofList_text_token (inner : List Char) :
    String.ofList (token inner).text = embrace (String.ofList inner) := by
  rw [← String.toList_inj, String.toList_ofList]
  simp [embrace, Piece.text]

section Opened

variable {inner : List Char}

theorem opened?_text_append (inner rest : List Char) :
    opened? ((token inner).text ++ rest) = untilBrace? (inner ++ '\x7d' :: rest) := by
  simp [Piece.text, opened?]

theorem untilBrace?_append (noBrace : '\x7d' ∉ inner) (noEnd : '\n' ∉ inner) (rest : List Char) :
    untilBrace? (inner ++ '\x7d' :: rest) = some inner := by
  induction inner with
  | nil => simp [untilBrace?]
  | cons c tail ih =>
      rw [List.mem_cons, not_or] at noBrace noEnd
      rw [List.cons_append, untilBrace?, if_neg (Ne.symm noBrace.1), if_neg (Ne.symm noEnd.1),
        ih noBrace.2 noEnd.2]
      rfl

theorem untilBrace?_ne_none (noEnd : '\n' ∉ inner) (rest : List Char) :
    untilBrace? (inner ++ '\x7d' :: rest) ≠ none := by
  induction inner with
  | nil => simp [untilBrace?]
  | cons c tail ih =>
      rw [List.mem_cons, not_or] at noEnd
      rw [List.cons_append, untilBrace?, if_neg (Ne.symm noEnd.1)]
      split
      · exact Option.some_ne_none []
      · exact mt Option.map_eq_none_iff.mp (ih noEnd.2)

/-- A mark that some brace closes opens a token, though another brace may end it. -/
theorem opened?_ne_none (noEnd : '\n' ∉ inner) (rest : List Char) :
    opened? ((token inner).text ++ rest) ≠ none := by
  rw [opened?_text_append]
  exact untilBrace?_ne_none noEnd rest

end Opened

/-- A character that opens no token, or stands right after a backslash, is cut off alone. -/
theorem cut_char {escaped : Bool} {c : Char} {rest : List Char}
    (plain : escaped = true ∨ opened? (c :: rest) = none) :
    cut 0 escaped (c :: rest) = char c :: cut 0 (c = '\\') rest := by
  rcases plain with rfl | closed
  · rw [cut]
    split <;> rfl
  · rw [cut, closed]

theorem cut_skip (escaped : Bool) (skipped : List Char) (last : Char) (rest : List Char) :
    cut (skipped.length + 1) escaped (skipped ++ last :: rest) = cut 0 (last = '\\') rest := by
  induction skipped generalizing escaped with
  | nil => rfl
  | cons c tail ih => exact ih _

theorem cut_token {inner : List Char} (noBrace : '\x7d' ∉ inner) (noEnd : '\n' ∉ inner)
    (rest : List Char) :
    cut 0 false ((token inner).text ++ rest) = token inner :: cut 0 false rest := by
  have opens := opened?_text_append inner rest
  have text : (token inner).text ++ rest = '$' :: '\x7b' :: (inner ++ '\x7d' :: rest) := by
    simp [Piece.text]
  have after := cut_skip false ('\x7b' :: inner) '\x7d' rest
  rw [untilBrace?_append noBrace noEnd, text] at opens
  rw [text, cut, opens]
  exact congrArg (token inner :: ·) after

/-- Going through a text as it is cut: past a single character, or past a token. -/
theorem cut_induction {holds : Bool → List Char → Prop} (nil : ∀ escaped, holds escaped [])
    (char : ∀ escaped c rest, escaped = true ∨ opened? (c :: rest) = none →
      holds (c = '\\') rest → holds escaped (c :: rest))
    (token : ∀ inner rest, '\x7d' ∉ inner → '\n' ∉ inner →
      holds false rest → holds false ((token inner).text ++ rest))
    (escaped : Bool) (text : List Char) : holds escaped text := by
  induction length : text.length using Nat.strongRecOn generalizing escaped text with
  | ind length ih =>
      cases text with
      | nil => exact nil escaped
      | cons c rest =>
          subst length
          by_cases plain : escaped = true ∨ opened? (c :: rest) = none
          · exact char escaped c rest plain (ih _ (Nat.lt_succ_self _) _ rest rfl)
          · obtain ⟨free, opens⟩ := not_or.mp plain
            obtain ⟨inner, found⟩ := Option.ne_none_iff_exists'.mp opens
            obtain ⟨⟨after, split⟩, noBrace, noEnd⟩ := opened?_eq_some found
            have whole : c :: rest = (Piece.token inner).text ++ after := by
              simp [split, Piece.text]
            rw [Bool.not_eq_true] at free
            rw [free, whole]
            refine token inner after noBrace noEnd (ih _ ?_ _ after rfl)
            rw [whole, List.length_append]
            simp [Piece.text]

/-- What stands in a token has no closing brace and ends no line. -/
theorem inner_of_mem_cut {inner : List Char} {escaped : Bool} {text : List Char}
    (member : token inner ∈ cut 0 escaped text) : '\x7d' ∉ inner ∧ '\n' ∉ inner := by
  induction escaped, text using cut_induction with
  | nil escaped => cases member
  | char escaped c rest plain ih =>
      rw [cut_char plain] at member
      rcases List.mem_cons.mp member with impossible | later
      · cases impossible
      · exact ih later
  | token found rest noBrace noEnd ih =>
      rw [cut_token noBrace noEnd] at member
      rcases List.mem_cons.mp member with same | later
      · cases same
        exact ⟨noBrace, noEnd⟩
      · exact ih later

/-- A token written alone is one piece. -/
theorem ofText_embrace {inner : List Char} (noBrace : '\x7d' ∉ inner) (noEnd : '\n' ∉ inner) :
    ofText (embrace (String.ofList inner)).toList = [token inner] := by
  have alone := cut_token noBrace noEnd []
  rw [List.append_nil] at alone
  rw [← ofList_text_token, String.toList_ofList, ofText, alone, cut]

theorem alone?_eq_some_iff {pieces : List Piece} {inner : List Char} :
    alone? pieces = some inner ↔ pieces = [token inner] := by
  constructor
  · intro alone
    unfold alone? at alone
    split at alone
    · cases alone
      rfl
    · cases alone
  · rintro rfl
    rfl

/-- A text is one token if it is the mark, something without a closing brace on one line, and the
brace. -/
theorem alone?_ofText_iff {text inner : String} :
    alone? (ofText text.toList) = some inner.toList ↔
      text = embrace inner ∧ '\x7d' ∉ inner.toList ∧ '\n' ∉ inner.toList := by
  rw [alone?_eq_some_iff]
  constructor
  · intro single
    have whole := flatMap_text_ofText text.toList
    rw [single, List.flatMap_singleton] at whole
    refine ⟨?_, inner_of_mem_cut (single ▸ List.mem_singleton_self _)⟩
    rw [← String.ofList_toList (s := text), ← whole, ofList_text_token, String.ofList_toList]
  · rintro ⟨rfl, noBrace, noEnd⟩
    have one := ofText_embrace noBrace noEnd
    rwa [String.ofList_toList] at one

end Piece

end StageTemplates
