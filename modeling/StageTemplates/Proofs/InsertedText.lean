import Mathlib
import StageTemplates.Proofs.EscapeMarks
import StageTemplates.Proofs.Readings
import StageTemplates.Proofs.TokenCuts

set_option autoImplicit false

/-!
What becomes of a text with tokens in it: its own characters without the backslashes of escaped
marks, and between them the texts of the variables. Backslashes are taken after the variables were
put in, so the variables stand as they are if and only if they have no part in a mark.
-/
namespace StageTemplates

/-- A text taken apart at its tokens: what stands before the first one, and each token with what
stands between it and the next. -/
structure Sections where
  head : List Char
  parts : List (List Char × List Char)

namespace Sections

def ofPieces : List Piece → Sections
  | [] => ⟨[], []⟩
  | .char c :: rest => ⟨c :: (ofPieces rest).head, (ofPieces rest).parts⟩
  | .token inner :: rest => ⟨[], (inner, (ofPieces rest).head) :: (ofPieces rest).parts⟩

def ofText (text : String) : Sections := ofPieces (Piece.ofText text.toList)

/-- The text between the tokens. -/
def literals (sections : Sections) : List (List Char) :=
  sections.head :: sections.parts.map Prod.snd

/-- The text with other text in place of the tokens. -/
def filledWith (sections : Sections) (texts : List String) : List Char :=
  sections.head ++
    (List.zipWith (fun text part => text.toList ++ part.2) texts sections.parts).flatten

/-- The same tokens, between text without the backslashes of escaped marks. -/
def unescaped (sections : Sections) : Sections :=
  ⟨unescapeChars sections.head, sections.parts.map fun part => (part.1, unescapeChars part.2)⟩

/-- How many escaped marks stand in the text between the tokens. -/
def marks (sections : Sections) : Nat :=
  sections.literals.foldr (fun text count => markCount text + count) 0

theorem filledWith_nil (head : List Char) (texts : List String) :
    filledWith ⟨head, []⟩ texts = head := by
  simp [filledWith]

theorem filledWith_cons (head : List Char) (part : List Char × List Char)
    (parts : List (List Char × List Char)) (text : String) (texts : List String) :
    filledWith ⟨head, part :: parts⟩ (text :: texts) =
      head ++ (text.toList ++ filledWith ⟨part.2, parts⟩ texts) := by
  simp [filledWith]

theorem filledWith_head (c : Char) (sections : Sections) (texts : List String) :
    filledWith ⟨c :: sections.head, sections.parts⟩ texts = c :: sections.filledWith texts := rfl

theorem marks_cons (head : List Char) (part : List Char × List Char)
    (parts : List (List Char × List Char)) :
    marks ⟨head, part :: parts⟩ = markCount head + marks ⟨part.2, parts⟩ := rfl

/-- The tokens are those found in the text. -/
theorem tokens_ofPieces (start : Nat) (pieces : List Piece) :
    (Token.ofPieces start pieces).map Token.inner =
      (ofPieces pieces).parts.map fun part => String.ofList part.1 := by
  induction pieces generalizing start with
  | nil => rfl
  | cons piece rest ih =>
      cases piece with
      | char c => exact ih _
      | token inner =>
          simp only [Token.ofPieces, ofPieces, List.map_cons]
          rw [ih]

theorem filledWith_parts (pieces : List Piece) :
    (ofPieces pieces).filledWith ((ofPieces pieces).parts.map fun part =>
      embrace (String.ofList part.1)) = pieces.flatMap Piece.text := by
  induction pieces with
  | nil => rfl
  | cons piece rest ih =>
      cases piece with
      | char c =>
          rw [ofPieces, filledWith_head, ih]
          rfl
      | token inner =>
          rw [ofPieces, List.map_cons, filledWith_cons, ih]
          simp [embrace, Piece.text]

/-- With the tokens themselves in the places of the tokens the text is what it was. -/
theorem filledWith_tokens (text : String) :
    (ofText text).filledWith ((Token.ofText text).map fun token => embrace token.inner) =
      text.toList := by
  have inners := tokens_ofPieces 0 (Piece.ofText text.toList)
  have tokens : (Token.ofText text).map (fun token => embrace token.inner) =
      (ofText text).parts.map fun part => embrace (String.ofList part.1) := by
    have embraced := congrArg (List.map embrace) inners
    rwa [List.map_map, List.map_map] at embraced
  rw [tokens, ofText, filledWith_parts, Piece.flatMap_text_ofText]

/-- Taking backslashes between the tokens only costs a character for each mark there. -/
theorem length_unescaped (sections : Sections) {texts : List String}
    (each : texts.length = sections.parts.length) :
    (sections.unescaped.filledWith texts).length + sections.marks =
      (sections.filledWith texts).length := by
  obtain ⟨head, parts⟩ := sections
  induction parts generalizing head texts with
  | nil =>
      rw [unescaped, List.map_nil, filledWith_nil, filledWith_nil]
      exact length_unescapeChars head
  | cons part parts ih =>
      obtain ⟨text, texts, rfl⟩ := List.exists_cons_of_length_eq_add_one each
      have later := ih part.2 (Nat.succ.inj each)
      have here := length_unescapeChars head
      rw [unescaped] at later
      rw [unescaped, List.map_cons, filledWith_cons, filledWith_cons, marks_cons]
      simp only [List.length_append]
      dsimp only at later ⊢
      omega

/-- The marks between the tokens are still there when the tokens are replaced. -/
theorem marks_le (sections : Sections) {texts : List String}
    (each : texts.length = sections.parts.length) :
    sections.marks ≤ markCount (sections.filledWith texts) := by
  obtain ⟨head, parts⟩ := sections
  induction parts generalizing head texts with
  | nil =>
      rw [filledWith_nil]
      exact Nat.le_refl _
  | cons part parts ih =>
      obtain ⟨text, texts, rfl⟩ := List.exists_cons_of_length_eq_add_one each
      have later := ih part.2 (Nat.succ.inj each)
      have outer := markCount_append_le head (text.toList ++ filledWith ⟨part.2, parts⟩ texts)
      have inner := markCount_append_le text.toList (filledWith ⟨part.2, parts⟩ texts)
      rw [filledWith_cons, marks_cons]
      omega

/-- If replacing the tokens makes no new mark, it may be done before or after unescaping. -/
theorem unescapeChars_filledWith (sections : Sections) {texts : List String}
    (each : texts.length = sections.parts.length)
    (same : markCount (sections.filledWith texts) = sections.marks) :
    unescapeChars (sections.filledWith texts) = sections.unescaped.filledWith texts := by
  obtain ⟨head, parts⟩ := sections
  induction parts generalizing head texts with
  | nil => rw [unescaped, List.map_nil, filledWith_nil, filledWith_nil]
  | cons part parts ih =>
      obtain ⟨text, texts, rfl⟩ := List.exists_cons_of_length_eq_add_one each
      have bound := marks_le ⟨part.2, parts⟩ (Nat.succ.inj each)
      have outer := markCount_append_le head (text.toList ++ filledWith ⟨part.2, parts⟩ texts)
      have inner := markCount_append_le text.toList (filledWith ⟨part.2, parts⟩ texts)
      rw [filledWith_cons, marks_cons] at same
      -- Marks can only be gained, so none is gained at either joint or in the new text.
      have later := ih part.2 (Nat.succ.inj each) (by omega)
      have plain : unescapeChars text.toList = text.toList :=
        unescapeChars_of_no_mark (by omega)
      rw [filledWith_cons, unescapeChars_append (by omega), unescapeChars_append (by omega), plain,
        later, unescaped, unescaped, List.map_cons, filledWith_cons]

/-- Unescaping after the tokens are replaced keeps the new text as it is exactly if it has no part
in a mark. -/
theorem unescapeChars_filledWith_iff (sections : Sections) {texts : List String}
    (each : texts.length = sections.parts.length) :
    unescapeChars (sections.filledWith texts) = sections.unescaped.filledWith texts ↔
      markCount (sections.filledWith texts) = sections.marks := by
  constructor
  · intro same
    have whole := length_unescapeChars (sections.filledWith texts)
    have apart := sections.length_unescaped each
    rw [same] at whole
    omega
  · exact sections.unescapeChars_filledWith each

end Sections

namespace Scope

variable (scope : Scope)

/-- Filling pieces puts the texts of the tokens in the places of the tokens. -/
theorem filled_eq_ok {pieces : List Piece} {chars : List Char}
    (success : (scope.filled pieces).outcome = .ok chars) :
    ∃ texts : List String,
      List.Forall₂ (fun part text => (scope.tokenText part.1).outcome = .ok text)
        (Sections.ofPieces pieces).parts texts ∧
      chars = (Sections.ofPieces pieces).filledWith texts := by
  induction pieces generalizing chars with
  | nil =>
      cases success
      exact ⟨[], List.Forall₂.nil, rfl⟩
  | cons piece rest ih =>
      cases piece with
      | char c =>
          rw [filled, Reading.outcome_bind_eq_ok_iff] at success
          obtain ⟨others, later, same⟩ := success
          cases same
          obtain ⟨texts, each, rfl⟩ := ih later
          exact ⟨texts, each, rfl⟩
      | token inner =>
          rw [filled, Reading.outcome_bind_eq_ok_iff] at success
          obtain ⟨text, here, success⟩ := success
          rw [Reading.outcome_bind_eq_ok_iff] at success
          obtain ⟨others, later, same⟩ := success
          cases same
          obtain ⟨texts, each, rfl⟩ := ih later
          refine ⟨text :: texts, List.Forall₂.cons here each, ?_⟩
          rw [Sections.ofPieces, Sections.filledWith_cons, List.nil_append]

theorem tokenText_eq_ok {inner : List Char} {text : String}
    (success : (scope.tokenText inner).outcome = .ok text) :
    ∃ node, (scope.tokenNode inner).outcome = .ok node ∧
      node.toValue.render scope.style = .ok text := by
  rw [tokenText, Reading.outcome_bind_eq_ok_iff] at success
  obtain ⟨node, found, success⟩ := success
  refine ⟨node, found, ?_⟩
  dsimp only at success
  split at success
  · cases success
  · cases rendered : node.toValue.render scope.style with
    | error error =>
        rw [rendered] at success
        cases success
    | ok same =>
        rw [rendered] at success
        cases success
        rfl

end Scope

namespace Piece

theorem mem_of_mem_parts {inner literal : List Char} {pieces : List Piece}
    (member : (inner, literal) ∈ (Sections.ofPieces pieces).parts) : token inner ∈ pieces := by
  induction pieces generalizing literal with
  | nil => cases member
  | cons piece rest ih =>
      cases piece with
      | char c => exact List.mem_cons_of_mem _ (ih member)
      | token first =>
          rcases List.mem_cons.mp member with same | later
          · cases same
            exact List.mem_cons_self
          · exact List.mem_cons_of_mem _ (ih later)

end Piece

namespace Context

/-- What a token stands for within text: the text of the value that its path selects. As the whole
of a text the token gives that same value. -/
def Shows (context : Context) (field : Option String) (unchecked : Bool) (token text : String) :
    Prop :=
  ∃ path node, keyPath unchecked token.toList = .ok path ∧ (context.select path).1 = .ok node ∧
    (context.resolveText (embrace token) field unchecked).1 = .ok node.toValue ∧
    node.toValue.render context.style = .ok text

theorem Shows.unique {context : Context} {field : Option String} {unchecked : Bool}
    {token first second : String} (one : context.Shows field unchecked token first)
    (two : context.Shows field unchecked token second) : first = second := by
  obtain ⟨path, node, parsed, selected, -, rendered⟩ := one
  obtain ⟨path', node', parsed', selected', -, rendered'⟩ := two
  cases parsed.symm.trans parsed'
  cases selected.symm.trans selected'
  exact Except.ok.inj (rendered.symm.trans rendered')

/-- Tokens have one list of texts at most. -/
theorem rightUnique_shows (context : Context) (field : Option String) (unchecked : Bool) :
    Relator.RightUnique (List.Forall₂ (context.Shows field unchecked)) :=
  Relator.RightUnique.forall₂ fun _ _ _ => Shows.unique

theorem shows_of_tokenText {context : Context} {field : Option String} {unchecked : Bool}
    {inner : List Char} {text : String} (noBrace : '\x7d' ∉ inner) (noEnd : '\n' ∉ inner)
    (success : ((context.scope field unchecked).tokenText inner).outcome = .ok text) :
    context.Shows field unchecked (String.ofList inner) text := by
  obtain ⟨node, found, rendered⟩ := Scope.tokenText_eq_ok _ success
  obtain ⟨path, parsed, selected⟩ := (Scope.tokenNode_eq_ok_iff _).mp found
  refine ⟨path, node, ?_, selected, ?_, rendered⟩
  · rwa [String.toList_ofList]
  · change ((context.scope field unchecked).resolveText _).outcome = _
    rw [Scope.resolveText, Piece.ofText_embrace noBrace noEnd]
    exact Reading.outcome_bind_eq_ok_iff.mpr ⟨node, found, rfl⟩

/-- A text that is not one token becomes its own characters, unescaped, with the texts of the
variables between them; and these stand there unchanged if and only if the text with the variables
in it has no escaped mark beside those written between the tokens. -/
theorem resolveText_verbatim_iff (context : Context) (field : Option String) (unchecked : Bool)
    {text : String} (mixed : isOneToken text = false) {value : Value}
    (success : (context.resolveText text field unchecked).1 = .ok value) :
    (Sections.ofText text).filledWith ((Token.ofText text).map fun token => embrace token.inner) =
      text.toList ∧
    ∃ texts : List String,
      List.Forall₂ (context.Shows field unchecked) ((Token.ofText text).map Token.inner) texts ∧
      value = .string (unescape (String.ofList ((Sections.ofText text).filledWith texts))) ∧
      (value = .string (String.ofList ((Sections.ofText text).unescaped.filledWith texts)) ↔
        markCount ((Sections.ofText text).filledWith texts) = (Sections.ofText text).marks) := by
  have alone : Piece.alone? (Piece.ofText text.toList) = none := by
    simpa [isOneToken] using mixed
  change ((context.scope field unchecked).resolveText text).outcome = .ok value at success
  rw [Scope.resolveText, alone, Reading.outcome_bind_eq_ok_iff] at success
  obtain ⟨chars, filled, same⟩ := success
  cases same
  obtain ⟨texts, each, rfl⟩ := Scope.filled_eq_ok _ filled
  refine ⟨Sections.filledWith_tokens text, texts, ?_, ?_, ?_⟩
  · rw [Token.ofText, Sections.tokens_ofPieces, List.forall₂_map_left_iff]
    have inners : ∀ part ∈ (Sections.ofPieces (Piece.ofText text.toList)).parts,
        '\x7d' ∉ part.1 ∧ '\n' ∉ part.1 :=
      fun part member => Piece.inner_of_mem_cut (Piece.mem_of_mem_parts member)
    exact (List.forall₂_and_left ..).mpr ⟨inners, each⟩ |>.imp fun part shown given =>
      shows_of_tokenText given.1.1 given.1.2 given.2
  · rw [unescape, String.toList_ofList]
    rfl
  · have count := each.length_eq.symm
    rw [← Sections.unescapeChars_filledWith_iff (Sections.ofText text) count]
    constructor
    · intro same
      exact String.ofList_injective (Scalar.string.inj (Value.scalar.inj same))
    · intro same
      rw [← same]
      rfl

def runVariables : Context :=
  ofEntries {} [("name", .string "x"), ("folder", .string "C:\\run"),
    ("pattern", .string "\\$\x7ba\x7d")]

def runText : String := "\\$\x7bname\x7d: $\x7bname\x7d in $\x7bfolder\x7d"

/-- A backslash of a variable stays beside an escaped mark of the text. -/
theorem run_verbatim :
    Value.string "$\x7bname\x7d: x in C:\\run" =
      .string (String.ofList ((Sections.ofText runText).unescaped.filledWith ["x", "C:\\run"])) := by
  have mixed : isOneToken runText = false := by cbv
  have success : (runVariables.resolveText runText none false).1 =
      .ok (.string "$\x7bname\x7d: x in C:\\run") := by cbv
  obtain ⟨-, texts, each, -, verbatim⟩ :=
    resolveText_verbatim_iff runVariables none false mixed success
  have inners : (Token.ofText runText).map Token.inner = ["name", "folder"] := by cbv
  have shown : List.Forall₂ (runVariables.Shows none false) ["name", "folder"]
      ["x", "C:\\run"] :=
    .cons ⟨"name", .scalar (.string "x") ⟨none, ["name"], true⟩, by cbv, by cbv, by cbv, by cbv⟩
      (.cons ⟨"folder", .scalar (.string "C:\\run") ⟨none, ["folder"], true⟩, by cbv, by cbv,
        by cbv, by cbv⟩ .nil)
  rw [inners] at each
  cases rightUnique_shows runVariables none false each shown
  exact verbatim.mpr (by cbv)

/-- A variable may lose a character within text. -/
theorem not_resolveText_verbatim :
    ¬ ∀ (context : Context) (field : Option String) (unchecked : Bool) (text : String)
        (value : Value) (texts : List String),
      isOneToken text = false → (context.resolveText text field unchecked).1 = .ok value →
      List.Forall₂ (context.Shows field unchecked) ((Token.ofText text).map Token.inner) texts →
      value = .string (String.ofList ((Sections.ofText text).unescaped.filledWith texts)) := by
  intro claimed
  have inners : (Token.ofText "x $\x7bpattern\x7d").map Token.inner = ["pattern"] := by cbv
  have shown : List.Forall₂ (runVariables.Shows none false) ["pattern"] ["\\$\x7ba\x7d"] :=
    .cons ⟨"pattern", .scalar (.string "\\$\x7ba\x7d") ⟨none, ["pattern"], true⟩, by cbv, by cbv,
      by cbv, by cbv⟩ .nil
  have kept := claimed runVariables none false "x $\x7bpattern\x7d" (.string "x $\x7ba\x7d")
    ["\\$\x7ba\x7d"] (by cbv) (by cbv) (by rwa [inners])
  have filled : (Sections.ofText "x $\x7bpattern\x7d").unescaped.filledWith ["\\$\x7ba\x7d"] =
      "x \\$\x7ba\x7d".toList := by cbv
  rw [filled] at kept
  exact absurd (Scalar.string.inj (Value.scalar.inj kept)) (by decide)

end Context

end StageTemplates
