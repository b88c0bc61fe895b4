import StageTemplates.Template.Piece

set_option autoImplicit false

/-!
Where escaped token marks stand in a text, and what taking their backslashes does to it.
-/
namespace StageTemplates

/-- Whether the text begins with an escaped token mark. -/
def opensMark (text : List Char) : Bool := ['\\', '$', '\x7b'].isPrefixOf text

/-- How many escaped token marks stand in the text. No two of them overlap. -/
def markCount : List Char → Nat
  | [] => 0
  | c :: rest => (if opensMark (c :: rest) then 1 else 0) + markCount rest

theorem opensMark_iff (text : List Char) :
    opensMark text = true ↔ ∃ rest, text = '\\' :: '$' :: '\x7b' :: rest := by
  rw [opensMark, List.isPrefixOf_iff_prefix]
  constructor
  · rintro ⟨rest, same⟩
    exact ⟨rest, same.symm⟩
  · rintro ⟨rest, rfl⟩
    exact ⟨rest, rfl⟩

/-- A mark at the beginning stays there when text is added at the end. -/
theorem opensMark_append {first : List Char} (opens : opensMark first = true)
    (second : List Char) : opensMark (first ++ second) = true := by
  rw [opensMark_iff] at opens ⊢
  obtain ⟨rest, rfl⟩ := opens
  exact ⟨rest ++ second, rfl⟩

theorem unescapeChars_of_ne {c : Char} (plain : c ≠ '\\') (rest : List Char) :
    unescapeChars (c :: rest) = c :: unescapeChars rest := by
  rw [unescapeChars]
  intro tail same
  exact absurd same plain

/-- Read from the left, a mark loses its first character and everything else stays. -/
theorem unescapeChars_cons (c : Char) (rest : List Char) :
    unescapeChars (c :: rest) =
      if opensMark (c :: rest) then unescapeChars rest else c :: unescapeChars rest := by
  split
  · next opens =>
      obtain ⟨tail, same⟩ := (opensMark_iff _).mp opens
      cases same
      rw [unescapeChars, unescapeChars_of_ne (by decide), unescapeChars_of_ne (by decide)]
  · next plain =>
      rw [opensMark_iff] at plain
      rw [unescapeChars]
      rintro tail rfl rfl
      exact plain ⟨tail, rfl⟩

/-- Each mark loses one character. -/
theorem length_unescapeChars (text : List Char) :
    (unescapeChars text).length + markCount text = text.length := by
  induction text with
  | nil => rfl
  | cons c rest ih =>
      rw [unescapeChars_cons, markCount, List.length_cons]
      split
      · omega
      · rw [List.length_cons]
        omega

theorem unescapeChars_of_no_mark {text : List Char} (plain : markCount text = 0) :
    unescapeChars text = text := by
  induction text with
  | nil => rfl
  | cons c rest ih =>
      rw [markCount] at plain
      rw [unescapeChars_cons]
      split
      · next opens =>
          rw [if_pos opens] at plain
          omega
      · rw [ih (by omega)]

/-- Marks of two texts are marks of the two together. -/
theorem markCount_append_le (first second : List Char) :
    markCount first + markCount second ≤ markCount (first ++ second) := by
  induction first with
  | nil => simp [markCount]
  | cons c rest ih =>
      rw [List.cons_append, markCount, markCount]
      have kept : (if opensMark (c :: rest) then 1 else 0) ≤
          if opensMark (c :: (rest ++ second)) then 1 else 0 := by
        by_cases opens : opensMark (c :: rest) = true
        · have still : opensMark (c :: (rest ++ second)) = true := opensMark_append opens second
          exact Nat.le_of_eq (by rw [if_pos opens, if_pos still])
        · rw [if_neg opens]
          exact Nat.zero_le _
      omega

/-- Where two texts meet without a new mark, each is unescaped by itself. -/
theorem unescapeChars_append {first second : List Char}
    (apart : markCount (first ++ second) = markCount first + markCount second) :
    unescapeChars (first ++ second) = unescapeChars first ++ unescapeChars second := by
  induction first with
  | nil => rfl
  | cons c rest ih =>
      rw [List.cons_append, markCount, markCount] at apart
      have inside := markCount_append_le rest second
      rw [List.cons_append, unescapeChars_cons, unescapeChars_cons]
      by_cases opens : opensMark (c :: rest) = true
      · have still : opensMark (c :: (rest ++ second)) = true := opensMark_append opens second
        rw [if_pos opens, if_pos still] at apart
        rw [if_pos opens, if_pos still, ih (by omega)]
      · rw [if_neg opens] at apart
        by_cases joined : opensMark (c :: (rest ++ second)) = true
        · rw [if_pos joined] at apart
          omega
        · rw [if_neg joined] at apart
          rw [if_neg opens, if_neg joined, ih (by omega), List.cons_append]

end StageTemplates
