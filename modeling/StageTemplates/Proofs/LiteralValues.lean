import StageTemplates.Proofs.DistinctNames
import StageTemplates.Proofs.EscapeMarks
import StageTemplates.Proofs.TokenCuts

set_option autoImplicit false

/-!
Any value can be written down as it is: with a backslash before every token mark it resolves to
itself, and nothing is read. Where no mark stands there is nothing to write differently.
-/
namespace StageTemplates

/-- The text with a backslash before every token mark. -/
def escapeChars : List Char → List Char
  | '$' :: '\x7b' :: rest => '\\' :: '$' :: '\x7b' :: escapeChars rest
  | c :: rest => c :: escapeChars rest
  | [] => []

def escape (text : String) : String := String.ofList (escapeChars text.toList)

/-- Whether the text begins with a token mark. -/
def OpensToken (text : List Char) : Prop := ['$', '\x7b'] <+: text

theorem escapeChars_mark (rest : List Char) :
    escapeChars ('$' :: '\x7b' :: rest) = '\\' :: '$' :: '\x7b' :: escapeChars rest := by
  rw [escapeChars]

theorem escapeChars_cons {c : Char} {rest : List Char} (plain : ¬ OpensToken (c :: rest)) :
    escapeChars (c :: rest) = c :: escapeChars rest := by
  rw [escapeChars]
  rintro tail rfl rfl
  exact plain ⟨tail, rfl⟩

/-- Going through a text by whole marks, and by single characters elsewhere. -/
theorem mark_induction {holds : List Char → Prop} (nil : holds [])
    (mark : ∀ rest, holds rest → holds ('$' :: '\x7b' :: rest))
    (char : ∀ c rest, ¬ OpensToken (c :: rest) → holds rest → holds (c :: rest))
    (text : List Char) : holds text := by
  fun_induction escapeChars text with
  | case1 rest ih => exact mark rest ih
  | case2 c rest other ih =>
      refine char c rest ?_ ih
      rintro ⟨tail, same⟩
      cases same
      exact other tail rfl rfl
  | case3 => exact nil

/-- Where an escaped text begins with a brace, so does the text. -/
theorem brace_of_escapeChars {text tail : List Char} (begins : escapeChars text = '\x7b' :: tail) :
    ∃ rest, text = '\x7b' :: rest := by
  induction text using mark_induction with
  | nil => cases begins
  | mark rest ih =>
      rw [escapeChars_mark] at begins
      cases begins
  | char c rest plain ih =>
      rw [escapeChars_cons plain] at begins
      cases begins
      exact ⟨rest, rfl⟩

/-- An escaped text begins with no mark, since a backslash comes before. -/
theorem not_opensToken_escapeChars (text : List Char) : ¬ OpensToken (escapeChars text) := by
  induction text using mark_induction with
  | nil => simp [escapeChars, OpensToken]
  | mark rest ih =>
      rw [escapeChars_mark]
      rintro ⟨tail, same⟩
      cases same
  | char c rest plain ih =>
      rw [escapeChars_cons plain]
      rintro ⟨tail, same⟩
      obtain ⟨rfl, after⟩ := List.cons.inj same
      obtain ⟨rest, rfl⟩ := brace_of_escapeChars after.symm
      exact plain ⟨rest, rfl⟩

/-- What is escaped is unescaped to what it was. -/
theorem unescapeChars_escapeChars (text : List Char) : unescapeChars (escapeChars text) = text := by
  induction text using mark_induction with
  | nil => rfl
  | mark rest ih => rw [escapeChars_mark, unescapeChars, ih]
  | char c rest plain ih =>
      have single : opensMark (c :: escapeChars rest) = false := by
        rw [← Bool.not_eq_true, opensMark_iff]
        rintro ⟨tail, same⟩
        obtain ⟨-, after⟩ := List.cons.inj same
        exact not_opensToken_escapeChars rest ⟨tail, after.symm⟩
      rw [escapeChars_cons plain, unescapeChars_cons, single, ih]
      rfl

theorem unescape_escape (text : String) : unescape (escape text) = text := by
  rw [unescape, escape, String.toList_ofList, unescapeChars_escapeChars, String.ofList_toList]

theorem escape_injective : Function.Injective escape :=
  Function.LeftInverse.injective unescape_escape

theorem escapeChars_of_no_mark {text : List Char} (plain : ¬ ['$', '\x7b'] <:+: text) :
    escapeChars text = text := by
  induction text using mark_induction with
  | nil => rfl
  | mark rest ih => exact absurd ⟨[], rest, rfl⟩ plain
  | char c rest single ih =>
      have later : ¬ ['$', '\x7b'] <:+: rest := fun within =>
        plain (within.trans (List.suffix_cons c rest).isInfix)
      rw [escapeChars_cons single, ih later]

theorem escape_of_no_mark {text : String} (plain : ¬ ['$', '\x7b'] <:+: text.toList) :
    escape text = text := by
  rw [escape, escapeChars_of_no_mark plain, String.ofList_toList]

namespace Piece

theorem opened?_of_not_opensToken {text : List Char} (plain : ¬ OpensToken text) :
    opened? text = none := by
  unfold opened?
  split
  · next rest => exact absurd ⟨rest, rfl⟩ plain
  · rfl

theorem cut_of_not_opensToken {c : Char} {rest : List Char} (plain : ¬ OpensToken (c :: rest))
    (escaped : Bool) : cut 0 escaped (c :: rest) = char c :: cut 0 (c = '\\') rest :=
  cut_char (Or.inr (opened?_of_not_opensToken plain))

/-- There is no token in an escaped text. -/
theorem cut_escapeChars (text : List Char) (escaped : Bool) :
    cut 0 escaped (escapeChars text) = (escapeChars text).map char := by
  induction text using mark_induction generalizing escaped with
  | nil => rfl
  | mark rest ih =>
      have backslash : ¬ OpensToken ('\\' :: '$' :: '\x7b' :: escapeChars rest) := by
        rintro ⟨tail, same⟩
        cases same
      have brace : ¬ OpensToken ('\x7b' :: escapeChars rest) := by
        rintro ⟨tail, same⟩
        cases same
      rw [escapeChars_mark, cut_of_not_opensToken backslash]
      simp only [decide_true]
      rw [cut_char (Or.inl rfl), cut_of_not_opensToken brace, ih]
      rfl
  | char c rest plain ih =>
      have whole := not_opensToken_escapeChars (c :: rest)
      rw [escapeChars_cons plain] at whole ⊢
      rw [cut_of_not_opensToken whole, ih, List.map_cons]

theorem ofText_escape (text : String) :
    ofText (escape text).toList = (escapeChars text.toList).map char := by
  rw [escape, String.toList_ofList, ofText, cut_escapeChars]

theorem alone?_map_char (chars : List Char) : alone? (chars.map char) = none := by
  cases chars with
  | nil => rfl
  | cons c rest => cases rest <;> rfl

end Piece

namespace Value

mutual

/-- The value with other text in the place of each text, keys included. -/
def mapTexts (change : String → String) : Value → Value
  | .scalar (.string text) => .scalar (.string (change text))
  | .scalar value => .scalar value
  | .list items => .list (mapTextsOfItems change items)
  | .dict entries => .dict (mapTextsOfEntries change entries)
termination_by structural value => value

def mapTextsOfItems (change : String → String) : List Value → List Value
  | [] => []
  | item :: rest => item.mapTexts change :: mapTextsOfItems change rest
termination_by structural items => items

def mapTextsOfEntries (change : String → String) :
    List (String × Value) → List (String × Value)
  | [] => []
  | (key, value) :: rest => (change key, value.mapTexts change) :: mapTextsOfEntries change rest
termination_by structural entries => entries

end

mutual

/-- All strings of a value, a key before what it names. -/
def strings : Value → List String
  | .scalar (.string text) => [text]
  | .scalar _ => []
  | .list items => stringsOfItems items
  | .dict entries => stringsOfEntries entries
termination_by structural value => value

def stringsOfItems : List Value → List String
  | [] => []
  | item :: rest => item.strings ++ stringsOfItems rest
termination_by structural items => items

def stringsOfEntries : List (String × Value) → List String
  | [] => []
  | (key, value) :: rest => key :: (value.strings ++ stringsOfEntries rest)
termination_by structural entries => entries

end

/-- The value with a backslash before every token mark in its texts. -/
def escaped (value : Value) : Value := value.mapTexts escape

section MapTexts

variable {change : String → String}

mutual

theorem mapTexts_eq_self (value : Value) (same : ∀ text ∈ value.strings, change text = text) :
    value.mapTexts change = value := by
  match value with
  | .scalar (.string text) => rw [mapTexts, same text (by simp [strings])]
  | .scalar .null => rfl
  | .scalar (.bool _) => rfl
  | .scalar (.int _) => rfl
  | .scalar (.float _) => rfl
  | .list items =>
      rw [strings] at same
      rw [mapTexts, mapTextsOfItems_eq_self items same]
  | .dict entries =>
      rw [strings] at same
      rw [mapTexts, mapTextsOfEntries_eq_self entries same]

theorem mapTextsOfItems_eq_self (items : List Value)
    (same : ∀ text ∈ stringsOfItems items, change text = text) :
    mapTextsOfItems change items = items := by
  match items with
  | [] => rfl
  | item :: rest =>
      rw [stringsOfItems, List.forall_mem_append] at same
      rw [mapTextsOfItems, mapTexts_eq_self item same.1, mapTextsOfItems_eq_self rest same.2]

theorem mapTextsOfEntries_eq_self (entries : List (String × Value))
    (same : ∀ text ∈ stringsOfEntries entries, change text = text) :
    mapTextsOfEntries change entries = entries := by
  match entries with
  | [] => rfl
  | (key, value) :: rest =>
      rw [stringsOfEntries, List.forall_mem_cons, List.forall_mem_append] at same
      rw [mapTextsOfEntries, same.1, mapTexts_eq_self value same.2.1,
        mapTextsOfEntries_eq_self rest same.2.2]

end

theorem keys_mapTextsOfEntries (entries : List (String × Value)) :
    Entries.keys (mapTextsOfEntries change entries) = (Entries.keys entries).map change := by
  induction entries with
  | nil => rfl
  | cons entry rest ih => simp [mapTextsOfEntries, ih]

mutual

/-- Texts that are changed apart stay apart, and so do the names of entries. -/
theorem Distinct.mapTexts (injective : Function.Injective change) {value : Value}
    (distinct : value.Distinct) : (value.mapTexts change).Distinct := by
  match value with
  | .scalar (.string _) => trivial
  | .scalar .null => trivial
  | .scalar (.bool _) => trivial
  | .scalar (.int _) => trivial
  | .scalar (.float _) => trivial
  | .list items =>
      rw [Distinct] at distinct
      rw [Value.mapTexts, Distinct]
      exact DistinctItems.mapTexts injective distinct
  | .dict entries =>
      rw [Distinct] at distinct
      rw [Value.mapTexts, Distinct, keys_mapTextsOfEntries]
      exact ⟨distinct.1.map injective, DistinctEntries.mapTexts injective distinct.2⟩

theorem DistinctItems.mapTexts (injective : Function.Injective change) {items : List Value}
    (distinct : DistinctItems items) : DistinctItems (mapTextsOfItems change items) := by
  match items with
  | [] => trivial
  | item :: rest =>
      rw [DistinctItems] at distinct
      rw [mapTextsOfItems, DistinctItems]
      exact ⟨Distinct.mapTexts injective distinct.1,
        DistinctItems.mapTexts injective distinct.2⟩

theorem DistinctEntries.mapTexts (injective : Function.Injective change)
    {entries : List (String × Value)} (distinct : DistinctEntries entries) :
    DistinctEntries (mapTextsOfEntries change entries) := by
  match entries with
  | [] => trivial
  | (key, value) :: rest =>
      rw [DistinctEntries] at distinct
      rw [mapTextsOfEntries, DistinctEntries]
      exact ⟨Distinct.mapTexts injective distinct.1,
        DistinctEntries.mapTexts injective distinct.2⟩

end

end MapTexts

end Value

namespace Scope

open Value (mapTextsOfItems mapTextsOfEntries DistinctItems DistinctEntries)

variable (scope : Scope)

theorem filled_map_char (chars : List Char) :
    scope.filled (chars.map Piece.char) = .pure chars := by
  induction chars with
  | nil => rfl
  | cons c rest ih =>
      rw [List.map_cons, filled, ih]
      rfl

/-- A text without a token loses the backslashes of its escaped marks, and nothing is read. -/
theorem resolveText_of_chars {text : String}
    (plain : Piece.ofText text.toList = text.toList.map Piece.char) :
    scope.resolveText text = .pure (.string (unescape text)) := by
  rw [resolveText, plain, Piece.alone?_map_char]
  dsimp only
  rw [filled_map_char]
  rfl

/-- An escaped text resolves to the text, without a read. -/
theorem resolveText_escape (text : String) :
    scope.resolveText (escape text) = .pure (.string text) := by
  have plain : Piece.ofText (escape text).toList = (escape text).toList.map Piece.char := by
    rw [Piece.ofText_escape, escape, String.toList_ofList]
  rw [scope.resolveText_of_chars plain, unescape_escape]

mutual

theorem resolve_mapTexts_escape (value : Value) (distinct : value.Distinct) :
    scope.resolve (value.mapTexts escape) = .pure value := by
  match value with
  | .scalar (.string text) =>
      rw [Value.mapTexts, resolve]
      exact scope.resolveText_escape text
  | .scalar .null => rfl
  | .scalar (.bool _) => rfl
  | .scalar (.int _) => rfl
  | .scalar (.float _) => rfl
  | .list items =>
      rw [Value.Distinct] at distinct
      rw [Value.mapTexts, resolve, resolveItems_mapTexts_escape items distinct]
      rfl
  | .dict entries =>
      rw [Value.Distinct] at distinct
      have whole : Entries.putAll [] entries = entries := Entries.ofList_of_nodup distinct.1
      rw [Value.mapTexts, resolve, resolveEntries_mapTexts_escape [] entries distinct.2, whole]
      rfl

theorem resolveItems_mapTexts_escape (items : List Value) (distinct : DistinctItems items) :
    scope.resolveItems (mapTextsOfItems escape items) = .pure items := by
  match items with
  | [] => rfl
  | item :: rest =>
      rw [DistinctItems] at distinct
      rw [mapTextsOfItems, resolveItems, resolve_mapTexts_escape item distinct.1,
        resolveItems_mapTexts_escape rest distinct.2]
      rfl

theorem resolveEntries_mapTexts_escape (done : Entries Value) (entries : List (String × Value))
    (distinct : DistinctEntries entries) :
    scope.resolveEntries done (mapTextsOfEntries escape entries) =
      .pure (Entries.putAll done entries) := by
  match entries with
  | [] => rfl
  | (key, value) :: rest =>
      rw [DistinctEntries] at distinct
      have later := resolveEntries_mapTexts_escape (Entries.put key value done) rest distinct.2
      rw [mapTextsOfEntries, resolveEntries, scope.resolveText_escape key,
        resolve_mapTexts_escape value distinct.1]
      exact later

end

end Scope

namespace Context

/-- Every value can be written literally. Escaping its marks names no entry twice; the escaped value
resolves to the value itself, in every context, field and mode, and reads nothing, so that the
context stays as it is. A value without a mark in its texts resolves to itself as it stands. -/
theorem resolve_escaped (context : Context) (field : Option String) (unchecked : Bool)
    {value : Value} (distinct : value.Distinct) :
    value.escaped.Distinct ∧
    (context.scope field unchecked).resolve value.escaped = ⟨[], .ok value⟩ ∧
    context.resolve value.escaped field unchecked = (.ok value, context) ∧
    ((∀ text ∈ value.strings, ¬ ['$', '\x7b'] <:+: text.toList) →
      context.resolve value field unchecked = (.ok value, context)) := by
  have reading : (context.scope field unchecked).resolve value.escaped = ⟨[], .ok value⟩ :=
    Scope.resolve_mapTexts_escape _ value distinct
  have resolved : context.resolve value.escaped field unchecked = (.ok value, context) := by
    rw [resolve, reading, noted, recorded_nil]
  refine ⟨distinct.mapTexts escape_injective, reading, resolved, fun plain => ?_⟩
  have same : value.escaped = value :=
    Value.mapTexts_eq_self value fun text member => escape_of_no_mark (plain text member)
  rwa [same] at resolved

/-- A name with a backslash before its mark beside one without, a mark that nothing closes, and two
dollar signs. -/
def marked : Value :=
  .dict [("$\x7bname\x7d", .string "\\$\x7bname"),
    ("\\$\x7bname\x7d", .list [.string "$$\x7bname\x7d"])]

theorem marked_resolve_escaped :
    let context : Context := { ofEntries {} [("name", .int 1)] with tracked := some {} }
    marked.escaped = .dict [("\\$\x7bname\x7d", .string "\\\\$\x7bname"),
      ("\\\\$\x7bname\x7d", .list [.string "$\\$\x7bname\x7d"])] ∧
    context.resolve marked.escaped none false = (.ok marked, context) := by
  intro context
  obtain ⟨-, -, resolved, -⟩ :=
    resolve_escaped context none false (show marked.Distinct by decide)
  exact ⟨by cbv, resolved⟩

end Context

end StageTemplates
