import Mathlib.Data.List.TakeWhile
import StageTemplates.Proofs.InTurn
import StageTemplates.Template.KeyPath

set_option autoImplicit false

/-!
The grammar of key paths, `word ('.' word | '[' word ']')*`. What is read as a key path is what the
grammar spells, and the words that come out are those that were spelled.
-/
namespace StageTemplates

namespace KeyPath

/-- Characters other than the point and the brackets, at least one. -/
def IsWord (text : List Char) : Prop :=
  text ≠ [] ∧ '.' ∉ text ∧ '[' ∉ text ∧ ']' ∉ text

/-- Words spelled one after another, each with a point before it or brackets around it. -/
inductive SpellsSteps : List (List Char) → List Char → Prop where
  | nil : SpellsSteps [] []
  | point {found rest : List Char} {words : List (List Char)} :
      IsWord found → SpellsSteps words rest → SpellsSteps (found :: words) ('.' :: (found ++ rest))
  | bracket {found rest : List Char} {words : List (List Char)} :
      IsWord found → SpellsSteps words rest →
        SpellsSteps (found :: words) ('[' :: (found ++ ']' :: rest))

/-- The words that a key path is made of. -/
inductive Spells : List (List Char) → List Char → Prop where
  | path {first rest : List Char} {others : List (List Char)} :
      IsWord first → SpellsSteps others rest → Spells (first :: others) (first ++ rest)

section Words

theorem isWordChar_iff {c : Char} : isWordChar c = true ↔ c ≠ '.' ∧ c ≠ '[' ∧ c ≠ ']' := by
  simp [isWordChar, and_assoc]

theorem isWord_iff {text : List Char} :
    IsWord text ↔ text ≠ [] ∧ ∀ c ∈ text, isWordChar c = true := by
  simp only [isWordChar_iff]
  constructor
  · rintro ⟨nonempty, point, opening, closing⟩
    refine ⟨nonempty, fun c member => ⟨?_, ?_, ?_⟩⟩
    · exact fun same => point (same ▸ member)
    · exact fun same => opening (same ▸ member)
    · exact fun same => closing (same ▸ member)
  · rintro ⟨nonempty, inside⟩
    exact ⟨nonempty, fun member => (inside _ member).1 rfl, fun member => (inside _ member).2.1 rfl,
      fun member => (inside _ member).2.2 rfl⟩

theorem word_append_drop (text : List Char) :
    word text ++ text.drop (word text).length = text := by
  induction text with
  | nil => rfl
  | cons c rest ih =>
      by_cases inside : isWordChar c = true
      · have head : word (c :: rest) = c :: word rest := List.takeWhile_cons_of_pos inside
        rw [head, List.length_cons, List.drop_succ_cons, List.cons_append, ih]
      · have head : word (c :: rest) = [] := List.takeWhile_cons_of_neg inside
        rw [head, List.length_nil, List.drop_zero, List.nil_append]

theorem word_append {found : List Char} (isWord : IsWord found) (rest : List Char) :
    word (found ++ rest) = found ++ word rest :=
  List.takeWhile_append_of_pos (isWord_iff.mp isWord).2

/-- A word is as long as it can be. -/
theorem word_drop (text : List Char) : word (text.drop (word text).length) = [] := by
  have rest : text.drop (word text).length = text.dropWhile isWordChar :=
    List.append_cancel_left
      ((word_append_drop text).trans List.takeWhile_append_dropWhile.symm)
  rw [rest, word, List.takeWhile_eq_nil_iff]
  exact List.dropWhile_get_zero_not isWordChar text

theorem isWord_word {text : List Char} (nonempty : word text ≠ []) : IsWord (word text) :=
  isWord_iff.mpr ⟨nonempty, fun _ member => List.mem_takeWhile_imp member⟩

/-- A word goes on as far as it can. -/
theorem exists_longest_word {found : List Char} (isWord : IsWord found) (rest : List Char) :
    ∃ more left, rest = more ++ left ∧ IsWord (found ++ more) ∧ word left = [] := by
  refine ⟨word rest, rest.drop (word rest).length, (word_append_drop rest).symm, ?_, word_drop rest⟩
  refine isWord_iff.mpr ⟨List.append_ne_nil_of_left_ne_nil isWord.1 _, fun c member => ?_⟩
  rcases List.mem_append.mp member with inside | inside
  · exact (isWord_iff.mp isWord).2 c inside
  · exact List.mem_takeWhile_imp inside

end Words

section Steps

variable {found rest : List Char}

theorem step?_point (isWord : IsWord found) (ends : word rest = []) :
    step? ('.' :: (found ++ rest)) = some (found, found.length + 1) := by
  obtain ⟨c, tail, rfl⟩ := List.exists_cons_of_ne_nil isWord.1
  rw [step?, word_append isWord, ends, List.append_nil]

theorem step?_bracket (isWord : IsWord found) (rest : List Char) :
    step? ('[' :: (found ++ ']' :: rest)) = some (found, found.length + 2) := by
  have ends : word (']' :: rest) = [] := rfl
  have after : (found ++ ']' :: rest).drop found.length = ']' :: rest := List.drop_left
  obtain ⟨c, tail, rfl⟩ := List.exists_cons_of_ne_nil isWord.1
  rw [step?, word_append isWord, ends, List.append_nil]
  dsimp only
  rw [after]
  rfl

/-- A step is a point and a word, or a word in brackets. -/
theorem step?_eq_some {text found : List Char} {width : Nat}
    (step : step? text = some (found, width)) :
    (∃ rest, text = '.' :: (found ++ rest) ∧ IsWord found ∧ word rest = []) ∨
      ∃ rest, text = '[' :: (found ++ ']' :: rest) ∧ IsWord found := by
  unfold step? at step
  split at step
  · next rest =>
      split at step
      · cases step
      · next nonempty =>
          cases step
          refine Or.inl ⟨rest.drop (word rest).length, ?_, isWord_word nonempty, word_drop rest⟩
          rw [word_append_drop]
  · next rest =>
      split at step
      · cases step
      · next nonempty =>
          split at step
          · next after closed =>
              cases step
              refine Or.inr ⟨after, ?_, isWord_word nonempty⟩
              rw [← closed, word_append_drop]
          · cases step
  · cases step

/-- Going through a text step by step. -/
theorem step_induction {holds : List Char → Prop} (nil : holds [])
    (stop : ∀ text, text ≠ [] → step? text = none → holds text)
    (point : ∀ found rest, IsWord found → word rest = [] → holds rest →
      holds ('.' :: (found ++ rest)))
    (bracket : ∀ found rest, IsWord found → holds rest → holds ('[' :: (found ++ ']' :: rest)))
    (text : List Char) : holds text := by
  induction length : text.length using Nat.strongRecOn generalizing text with
  | ind length ih =>
      subst length
      cases step : step? text with
      | none =>
          by_cases empty : text = []
          · exact empty ▸ nil
          · exact stop text empty step
      | some taken =>
          obtain ⟨found, width⟩ := taken
          rcases step?_eq_some step with ⟨rest, rfl, isWord, ends⟩ | ⟨rest, rfl, isWord⟩
          · refine point found rest isWord ends (ih _ ?_ rest rfl)
            rw [List.length_cons, List.length_append]
            omega
          · refine bracket found rest isWord (ih _ ?_ rest rfl)
            rw [List.length_cons, List.length_append, List.length_cons]
            omega

theorem steps_skip (skipped : List Char) (place : Nat) (rest : List Char) :
    steps skipped.length place (skipped ++ rest) = steps 0 (place + skipped.length) rest := by
  induction skipped generalizing place with
  | nil => rfl
  | cons c tail ih =>
      rw [List.length_cons, List.cons_append, steps, ih, Nat.add_right_comm, Nat.add_assoc]

theorem steps_of_none {text : List Char} (nonempty : text ≠ []) (none : step? text = none)
    (place : Nat) : steps 0 place text = .error place := by
  obtain ⟨c, rest, rfl⟩ := List.exists_cons_of_ne_nil nonempty
  rw [steps, none]

theorem steps_point (isWord : IsWord found) (ends : word rest = []) (place : Nat) :
    steps 0 place ('.' :: (found ++ rest)) =
      (steps 0 (place + (found.length + 1)) rest).map (found :: ·) := by
  rw [steps, step?_point isWord ends]
  dsimp only
  rw [Nat.add_sub_cancel, steps_skip, Nat.add_right_comm, Nat.add_assoc]
  cases steps 0 (place + (found.length + 1)) rest <;> rfl

theorem steps_bracket (isWord : IsWord found) (place : Nat) :
    steps 0 place ('[' :: (found ++ ']' :: rest)) =
      (steps 0 (place + (found.length + 2)) rest).map (found :: ·) := by
  have skip := steps_skip (found ++ [']']) (place + 1) rest
  rw [List.append_assoc, List.singleton_append, List.length_append, List.length_singleton] at skip
  rw [steps, step?_bracket isWord]
  dsimp only
  rw [show found.length + 2 - 1 = found.length + 1 from rfl, skip,
    show place + 1 + (found.length + 1) = place + (found.length + 2) by omega]
  cases steps 0 (place + (found.length + 2)) rest <;> rfl

/-- The steps of a text are read to its end, or up to the first that is none. -/
theorem steps_cases (text : List Char) (place : Nat) :
    (∃ words, SpellsSteps words text ∧ steps 0 place text = .ok words) ∨
      ∃ words before after, text = before ++ after ∧ after ≠ [] ∧ SpellsSteps words before ∧
        steps 0 place text = .error (place + before.length) := by
  induction text using step_induction generalizing place with
  | nil => exact Or.inl ⟨[], .nil, rfl⟩
  | stop text nonempty none =>
      exact Or.inr ⟨[], [], text, rfl, nonempty, .nil, steps_of_none nonempty none place⟩
  | point found rest isWord ends ih =>
      rcases ih (place + (found.length + 1)) with
        ⟨words, spelled, run⟩ | ⟨words, before, after, rfl, more, spelled, run⟩
      · exact Or.inl
          ⟨found :: words, .point isWord spelled, by rw [steps_point isWord ends, run]; rfl⟩
      · refine Or.inr ⟨found :: words, '.' :: (found ++ before), after, by simp, more,
          .point isWord spelled, ?_⟩
        rw [steps_point isWord ends, run, List.length_cons, List.length_append]
        exact congrArg Except.error (by omega)
  | bracket found rest isWord ih =>
      rcases ih (place + (found.length + 2)) with
        ⟨words, spelled, run⟩ | ⟨words, before, after, rfl, more, spelled, run⟩
      · exact Or.inl
          ⟨found :: words, .bracket isWord spelled, by rw [steps_bracket isWord, run]; rfl⟩
      · refine Or.inr ⟨found :: words, '[' :: (found ++ ']' :: before), after, by simp, more,
          .bracket isWord spelled, ?_⟩
        rw [steps_bracket isWord, run, List.length_cons, List.length_append, List.length_cons]
        exact congrArg Except.error (by omega)

theorem place_le_of_steps {place stop : Nat} {text : List Char}
    (failed : steps 0 place text = .error stop) : place ≤ stop := by
  rcases steps_cases text place with ⟨words, -, run⟩ | ⟨words, before, after, -, -, -, run⟩
  · cases failed.symm.trans run
  · cases failed.symm.trans run
    exact Nat.le_add_right _ _

/-- What is spelled begins with no word, and still does not when text is added to it. -/
theorem SpellsSteps.word_append_eq_nil {words : List (List Char)} {text : List Char}
    (spelled : SpellsSteps words text) (nonempty : text ≠ []) (rest : List Char) :
    word (text ++ rest) = [] := by
  cases spelled with
  | nil => exact absurd rfl nonempty
  | point isWord spelled => rfl
  | bracket isWord spelled => rfl

theorem SpellsSteps.word_eq_nil {words : List (List Char)} {text : List Char}
    (spelled : SpellsSteps words text) : word text = [] := by
  cases spelled <;> rfl

theorem steps_of_spells {words : List (List Char)} {text : List Char}
    (spelled : SpellsSteps words text) (place : Nat) : steps 0 place text = .ok words := by
  induction spelled generalizing place with
  | nil => rfl
  | point isWord spelled ih =>
      rw [steps_point isWord spelled.word_eq_nil, ih]
      rfl
  | bracket isWord spelled ih =>
      rw [steps_bracket isWord, ih]
      rfl

/-- A word is read to its end, though it may go on behind what was spelled. -/
theorem point_place_le (isWord : IsWord found) {place stop : Nat}
    (failed : steps 0 place ('.' :: (found ++ rest)) = .error stop) :
    place + (found.length + 1) ≤ stop := by
  obtain ⟨more, left, rfl, longer, ends⟩ := exists_longest_word isWord rest
  rw [← List.append_assoc, steps_point longer ends, List.length_append] at failed
  have bound := place_le_of_steps (map_eq_error_iff.mp failed)
  omega

/-- What can be spelled from the beginning of a text is read before the reading stops. -/
theorem SpellsSteps.place_le {words : List (List Char)} {text : List Char}
    (spelled : SpellsSteps words text) {place stop : Nat} {after : List Char}
    (failed : steps 0 place (text ++ after) = .error stop) : place + text.length ≤ stop := by
  induction spelled generalizing place with
  | nil => exact place_le_of_steps failed
  | @point found rest words isWord spelled ih =>
      rw [List.cons_append, List.append_assoc] at failed
      by_cases more : rest = []
      · subst more
        simpa using point_place_le isWord failed
      · rw [steps_point isWord (spelled.word_append_eq_nil more after)] at failed
        have bound := ih (map_eq_error_iff.mp failed)
        rw [List.length_cons, List.length_append]
        omega
  | @bracket found rest words isWord spelled ih =>
      rw [List.cons_append, List.append_assoc, List.cons_append, steps_bracket isWord] at failed
      have bound := ih (map_eq_error_iff.mp failed)
      rw [List.length_cons, List.length_append, List.length_cons]
      omega

end Steps

section Paths

theorem toList_dotted (first : List Char) (others : List (List Char)) :
    (dotted (first :: others)).toList = first ++ others.flatMap ('.' :: ·) := by
  unfold dotted
  induction others generalizing first with
  | nil => simp
  | cons next rest ih =>
      rw [List.map_cons, List.map_cons, String.intercalate_cons_cons, ← List.map_cons]
      rw [String.toList_append, String.toList_append, ih next, String.toList_ofList,
        List.flatMap_cons]
      simp

variable {expression : String}

theorem words_append {first rest : List Char} (isWord : IsWord first) (ends : word rest = [])
    (same : expression.toList = first ++ rest) :
    words expression = ((steps 0 first.length rest).map (first :: ·)).mapError
      fun place => ⟨expression, place, .endOfText⟩ := by
  have split : (first ++ rest).drop first.length = rest := List.drop_left
  obtain ⟨c, tail, rfl⟩ := List.exists_cons_of_ne_nil isWord.1
  rw [words, same, word_append isWord, ends, List.append_nil]
  dsimp only
  rw [split]
  cases steps 0 (c :: tail).length rest <;> rfl

/-- A text is a key path, begins with no word, or is one up to the first step that is none. -/
theorem words_cases (expression : String) :
    (∃ found, Spells found expression.toList ∧ words expression = .ok found) ∨
      (word expression.toList = [] ∧ words expression = .error ⟨expression, 0, .key⟩) ∨
      ∃ found before after, expression.toList = before ++ after ∧ after ≠ [] ∧
        Spells found before ∧ words expression = .error ⟨expression, before.length, .endOfText⟩ := by
  by_cases none : word expression.toList = []
  · refine Or.inr (Or.inl ⟨none, ?_⟩)
    rw [words, none]
  · have isWord := isWord_word none
    have whole := word_append_drop expression.toList
    have run := words_append isWord (word_drop expression.toList) whole.symm
    rcases steps_cases (expression.toList.drop (word expression.toList).length)
        (word expression.toList).length with
      ⟨others, spelled, reached⟩ | ⟨others, before, after, split, more, spelled, reached⟩
    · have path := Spells.path isWord spelled
      rw [whole] at path
      rw [reached] at run
      exact Or.inl ⟨_, path, run⟩
    · refine Or.inr (Or.inr ⟨_, word expression.toList ++ before, after, ?_, more,
        .path isWord spelled, ?_⟩)
      · rw [List.append_assoc, ← split, whole]
      · rw [run, reached, List.length_append]
        rfl

theorem words_of_spells {found : List (List Char)} (spelled : Spells found expression.toList) :
    words expression = .ok found := by
  generalize same : expression.toList = text at spelled
  cases spelled with
  | path isWord others =>
      rw [words_append isWord others.word_eq_nil same, steps_of_spells others]
      rfl

theorem words_eq_ok_iff {found : List (List Char)} :
    words expression = .ok found ↔ Spells found expression.toList := by
  constructor
  · intro read
    rcases words_cases expression with
      ⟨others, spelled, run⟩ | ⟨-, run⟩ | ⟨others, before, after, -, -, -, run⟩
    · cases read.symm.trans run
      exact spelled
    · cases read.symm.trans run
    · cases read.symm.trans run
  · exact words_of_spells

theorem parse_eq_ok_iff {path : String} :
    parse expression = .ok path ↔
      ∃ found, Spells found expression.toList ∧ path = dotted found := by
  simp only [← words_eq_ok_iff, parse]
  constructor
  · intro read
    split at read
    · next found given =>
        cases read
        exact ⟨found, given, rfl⟩
    · cases read
  · rintro ⟨found, given, rfl⟩
    rw [given]

theorem parse_eq_error_iff {fault : SyntaxFault} :
    parse expression = .error fault ↔ words expression = .error fault := by
  unfold parse
  cases words expression <;> simp

/-- There is one way only to spell a text. -/
theorem Spells.unique {text : List Char} {first second : List (List Char)}
    (one : Spells first text) (two : Spells second text) : first = second := by
  rw [← String.toList_ofList (l := text)] at one two
  exact Except.ok.inj ((words_of_spells one).symm.trans (words_of_spells two))

theorem SpellsSteps.isWord {words : List (List Char)} {text : List Char}
    (spelled : SpellsSteps words text) : ∀ found ∈ words, IsWord found := by
  induction spelled with
  | nil => simp
  | point isWord spelled ih => exact List.forall_mem_cons.mpr ⟨isWord, ih⟩
  | bracket isWord spelled ih => exact List.forall_mem_cons.mpr ⟨isWord, ih⟩

theorem Spells.isWord {words : List (List Char)} {text : List Char} (spelled : Spells words text) :
    ∀ found ∈ words, IsWord found := by
  cases spelled with
  | path isWord others => exact List.forall_mem_cons.mpr ⟨isWord, others.isWord⟩

theorem Spells.exists_cons {words : List (List Char)} {text : List Char}
    (spelled : Spells words text) : ∃ first others, words = first :: others := by
  cases spelled with
  | path isWord others => exact ⟨_, _, rfl⟩

theorem SpellsSteps.points {words : List (List Char)} {text : List Char}
    (spelled : SpellsSteps words text) : SpellsSteps words (words.flatMap ('.' :: ·)) := by
  induction spelled with
  | nil => exact .nil
  | point isWord spelled ih => exact .point isWord ih
  | bracket isWord spelled ih => exact .point isWord ih

/-- The words of a key path can be spelled with points only. -/
theorem Spells.dotted {words : List (List Char)} {text : List Char} (spelled : Spells words text) :
    Spells words (dotted words).toList := by
  cases spelled with
  | path isWord others =>
      rw [toList_dotted]
      exact .path isWord others.points

end Paths

/-- The key paths are what the grammar spells; one text has one spelling, and its words with points
between them are the path. A path is read as itself, and other text is read as the same path exactly
if it spells the same words. -/
theorem parse_spelled (expression : String) :
    (∀ path, parse expression = .ok path ↔
      ∃ words, Spells words expression.toList ∧ path = dotted words) ∧
    (∀ words others, Spells words expression.toList → Spells others expression.toList →
      words = others) ∧
    (∀ path, parse expression = .ok path → parse path = .ok path) ∧
    ∀ other words, Spells words expression.toList →
      (parse other = parse expression ↔ Spells words other.toList) := by
  have again : ∀ {words}, Spells words expression.toList →
      parse (dotted words) = .ok (dotted words) := fun spelled =>
    parse_eq_ok_iff.mpr ⟨_, spelled.dotted, rfl⟩
  refine ⟨fun path => parse_eq_ok_iff, fun words others one two => one.unique two, ?_, ?_⟩
  · intro path read
    obtain ⟨words, spelled, rfl⟩ := parse_eq_ok_iff.mp read
    exact again spelled
  · intro other words spelled
    rw [parse_eq_ok_iff.mpr ⟨words, spelled, rfl⟩]
    constructor
    · intro same
      obtain ⟨others, read, path⟩ := parse_eq_ok_iff.mp same
      have one : Spells words (dotted words).toList := spelled.dotted
      have two : Spells others (dotted others).toList := read.dotted
      rw [← path] at two
      rwa [one.unique two]
    · intro read
      exact parse_eq_ok_iff.mpr ⟨words, read, rfl⟩

/-- The words of a layer's setting. -/
def layerWords : List (List Char) := ["layers".toList, "0".toList, "units".toList]

/-- Brackets in one place or the other are the same path. -/
theorem layers_parse_spelled :
    Spells layerWords "layers[0].units".toList ∧ Spells layerWords "layers.0[units]".toList ∧
      parse "layers[0].units" = .ok "layers.0.units" ∧
      parse "layers.0[units]" = parse "layers[0].units" := by
  have one : Spells layerWords "layers[0].units".toList := words_eq_ok_iff.mp (by cbv)
  have two : Spells layerWords "layers.0[units]".toList := words_eq_ok_iff.mp (by cbv)
  obtain ⟨paths, -, -, alike⟩ := parse_spelled "layers[0].units"
  refine ⟨one, two, (paths _).mpr ⟨layerWords, one, by cbv⟩, (alike _ layerWords one).mpr two⟩

end KeyPath

end StageTemplates
