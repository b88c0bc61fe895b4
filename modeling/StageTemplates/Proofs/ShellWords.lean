import StageTemplates.Proofs.DottedPaths
import StageTemplates.Shell.Arguments

set_option autoImplicit false

/-!
How a POSIX shell takes a command line apart into words. Words that are quoted and written with a
blank between them come out as they went in.
-/
namespace StageTemplates

namespace Shell

/-- What ends a word outside quotes. -/
def isBlank (c : Char) : Bool := c = ' ' || c = '\t'

/-- The characters that mean something else than themselves outside quotes, besides blanks and
quotes. The equals sign does so only before the name of a command, and the percent sign only for
jobs. -/
def specials : List Char := "|&;<>()$\x60\\*?[]#~!\x7b\x7d\n".toList

def isSpecial (c : Char) : Bool := specials.contains c

/-- The characters that mean something else than themselves between double quotes. -/
def isActive (c : Char) : Bool := "$\x60\\!".toList.contains c

/-- Goes on taking words from a text. The mark is that of the quotes the text stands in, and the
word is what was read of one that is not complete. There is no answer where a character has a
special meaning, or where quotes stay open. -/
def splitFrom : (quote : Option Char) → (word : Option (List Char)) → List Char →
    Option (List (List Char))
  | none, word, [] => some word.toList
  | some _, _, [] => none
  | none, word, c :: rest =>
      if isBlank c then (splitFrom none none rest).map (word.toList ++ ·)
      else if c = '\'' || c = '"' then splitFrom (some c) (some (word.getD [])) rest
      else if isSpecial c then none
      else splitFrom none (some (word.getD [] ++ [c])) rest
  | some mark, word, c :: rest =>
      if c = mark then splitFrom none word rest
      else if mark = '"' && isActive c then none
      else splitFrom (some mark) (some (word.getD [] ++ [c])) rest

/-- The words of a command line without special characters. -/
def split? (line : String) : Option (List String) :=
  (splitFrom none none line.toList).map (·.map String.ofList)

section Safe

variable {c : Char}

/-- The ranges of alphanumeric characters have no white space in them. -/
theorem isAlphanumeric_eq_false_of_isSpace (space : Text.isSpace c = true) :
    Text.isAlphanumeric c = false := by
  have apart : ∀ n ∈ [9, 10, 11, 12, 13, 32, 0x85, 0xA0, 0x1680, 0x2000, 0x2001, 0x2002, 0x2003,
      0x2004, 0x2005, 0x2006, 0x2007, 0x2008, 0x2009, 0x200A, 0x2028, 0x2029, 0x202F, 0x205F,
      0x3000], Text.isAlphanumeric (Char.ofNat n) = false := by
    decide +kernel
  rw [← Char.ofNat_toNat c]
  refine apart c.toNat ?_
  simp only [Text.isSpace, Bool.or_eq_true, Bool.and_eq_true, decide_eq_true_eq] at space
  simp only [List.mem_cons, List.not_mem_nil, or_false]
  omega

theorem isSpace_eq_false_of_isSafe (safe : isSafe c = true) : Text.isSpace c = false := by
  have marks : "_@%+=:,./-".toList.all (!Text.isSpace ·) = true := by decide
  rw [← Bool.not_eq_true]
  intro space
  rw [isSafe, isAlphanumeric_eq_false_of_isSpace space, Bool.false_or, isSafeMark,
    List.contains_iff_mem] at safe
  have solid := List.all_eq_true.mp marks c safe
  rw [space] at solid
  cases solid

theorem isSafe_eq_false_of_mem (member : c ∈ ' ' :: '\t' :: '\'' :: '"' :: specials) :
    isSafe c = false := by
  have all : (' ' :: '\t' :: '\'' :: '"' :: specials).all (!isSafe ·) = true := by decide +kernel
  simpa using List.all_eq_true.mp all c member

/-- A safe character stands for itself outside quotes. -/
theorem splitFrom_safe (safe : isSafe c = true) (word : Option (List Char)) (rest : List Char) :
    splitFrom none word (c :: rest) = splitFrom none (some (word.getD [] ++ [c])) rest := by
  have other : c ∉ ' ' :: '\t' :: '\'' :: '"' :: specials := by
    intro member
    rw [isSafe_eq_false_of_mem member] at safe
    cases safe
  simp only [List.mem_cons, not_or] at other
  obtain ⟨blank, tab, single, double, special⟩ := other
  simp [splitFrom, isBlank, isSpecial, blank, tab, single, double, special]

end Safe

theorem splitFrom_append_safe {text : List Char} (safe : ∀ c ∈ text, isSafe c = true)
    (word rest : List Char) :
    splitFrom none (some word) (text ++ rest) = splitFrom none (some (word ++ text)) rest := by
  induction text generalizing word with
  | nil => rw [List.nil_append, List.append_nil]
  | cons c text ih =>
      rw [List.forall_mem_cons] at safe
      rw [List.cons_append, splitFrom_safe safe.1, Option.getD_some, ih safe.2, List.append_assoc,
        List.singleton_append]

/-- Between single quotes every character stands for itself, and the single quote is what stands
between double quotes for it. -/
theorem splitFrom_flatMap_quotedChar (text word rest : List Char) :
    splitFrom (some '\'') (some word) (text.flatMap quotedChar ++ '\'' :: rest) =
      splitFrom none (some (word ++ text)) rest := by
  induction text generalizing word with
  | nil => simp [splitFrom]
  | cons c text ih =>
      have later := ih (word ++ [c])
      rw [List.append_assoc, List.singleton_append] at later
      rw [List.flatMap_cons, quotedChar]
      by_cases mark : c = '\''
      · subst mark
        rw [if_pos rfl, ← later]
        simp [splitFrom, isBlank, isActive]
      · rw [if_neg mark, ← later]
        simp [splitFrom, mark]

/-- A quoted text is read as the characters of the text, after those of the word before it. -/
theorem splitFrom_quotedChars (text rest : List Char) (word : Option (List Char)) :
    splitFrom none word (quotedChars text ++ rest) =
      splitFrom none (some (word.getD [] ++ text)) rest := by
  unfold quotedChars
  split
  · simp [splitFrom, isBlank]
  · next nonempty =>
      obtain ⟨c, others, rfl⟩ := List.exists_cons_of_ne_nil nonempty
      split
      · next safe =>
          rw [List.all_eq_true, List.forall_mem_cons] at safe
          rw [List.cons_append, splitFrom_safe safe.1, splitFrom_append_safe safe.2,
            List.append_assoc, List.singleton_append]
      · have opened : splitFrom none word
            ('\'' :: ((c :: others).flatMap quotedChar ++ ['\'']) ++ rest) =
              splitFrom (some '\'') (some (word.getD []))
                ((c :: others).flatMap quotedChar ++ '\'' :: rest) := by
          simp [splitFrom, isBlank]
        rw [opened, splitFrom_flatMap_quotedChar]

/-- A quoted text ends in a character that is no white space. -/
theorem quotedChars_eq_concat (text : List Char) :
    ∃ before last, quotedChars text = before ++ [last] ∧ Text.isSpace last = false := by
  unfold quotedChars
  split
  · exact ⟨['\''], '\'', rfl, by decide⟩
  · next nonempty =>
      split
      · next safe =>
          rw [List.all_eq_true] at safe
          refine ⟨text.dropLast, text.getLast nonempty,
            (List.dropLast_append_getLast nonempty).symm, ?_⟩
          exact isSpace_eq_false_of_isSafe (safe _ (List.getLast_mem nonempty))
      · exact ⟨'\'' :: text.flatMap quotedChar, '\'', rfl, by decide⟩

/-- Texts that are quoted, with a blank after each. -/
def written (texts : List (List Char)) : List Char :=
  texts.flatMap fun text => quotedChars text ++ [' ']

theorem splitFrom_written (texts : List (List Char)) (rest : List Char) :
    splitFrom none none (written texts ++ rest) =
      (splitFrom none none rest).map (texts ++ ·) := by
  induction texts with
  | nil => simp [written]
  | cons text others ih =>
      have first : written (text :: others) ++ rest =
          quotedChars text ++ ' ' :: (written others ++ rest) := by
        simp [written]
      have blank : splitFrom none (some text) (' ' :: (written others ++ rest)) =
          (splitFrom none none (written others ++ rest)).map ([text] ++ ·) := by
        simp [splitFrom, isBlank]
      rw [first, splitFrom_quotedChars, Option.getD_none, List.nil_append, blank, ih,
        Option.map_map]
      rfl

/-- Without the blank at its end a line has the same words. -/
theorem splitFrom_dropSpacesEnd_written (texts : List (List Char)) :
    splitFrom none none (Text.dropSpacesEnd (written texts)) = some texts := by
  rcases List.eq_nil_or_concat texts with rfl | ⟨others, text, rfl⟩
  · rfl
  · obtain ⟨before, last, split, solid⟩ := quotedChars_eq_concat text
    have trimmed : Text.dropSpacesEnd (written (others ++ [text])) =
        written others ++ quotedChars text := by
      have line : written (others ++ [text]) =
          (written others ++ before ++ [last]) ++ [' '] := by
        simp [written, split]
      have blank : Text.isSpace ' ' = true := by decide
      rw [Text.dropSpacesEnd_eq_rdropWhile, line, List.rdropWhile_concat_pos _ _ _ blank,
        List.rdropWhile_concat_neg _ _ _ (by simp [solid]), split, List.append_assoc]
    have whole := splitFrom_quotedChars text [] none
    rw [List.append_nil] at whole
    rw [List.concat_eq_append, trimmed, splitFrom_written, whole]
    rfl

theorem toList_join_map_quoted (words : List String) :
    (String.join ((words.map quoted).map (· ++ " "))).toList =
      written (words.map String.toList) := by
  rw [String.toList_join]
  simp [written, quoted, List.flatMap_map]

/-- Splitting takes a line of quoted words apart into these words, whatever characters they have. -/
theorem split?_line_map_quoted (words : List String) :
    split? (line (words.map quoted)) = some words := by
  rw [split?, line, Text.trimEnd, toList_join_map_quoted, String.toList_ofList,
    splitFrom_dropSpacesEnd_written, Option.map_some, List.map_map]
  simp

end Shell

end StageTemplates
