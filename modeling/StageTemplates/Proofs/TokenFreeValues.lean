import StageTemplates.Proofs.TokenReads

set_option autoImplicit false

/-!
Values without tokens need no variables: they resolve to the same in every context, and they are the
only ones that resolve where there are no variables.
-/
namespace StageTemplates

namespace Piece

theorem inner_ofPieces_eq_nil_iff (start : Nat) (pieces : List Piece) :
    (Token.ofPieces start pieces).map Token.inner = [] ↔ pieces.any isToken = false := by
  induction pieces generalizing start with
  | nil => simp [Token.ofPieces]
  | cons piece rest ih =>
      cases piece with
      | char c => simpa [Token.ofPieces, isToken] using ih _
      | token inner => simp [Token.ofPieces, isToken]

theorem eq_map_char {pieces : List Piece} (plain : pieces.any isToken = false) :
    pieces = (pieces.flatMap text).map char := by
  induction pieces with
  | nil => rfl
  | cons piece rest ih =>
      cases piece with
      | char c =>
          rw [List.flatMap_cons, text, List.singleton_append, List.map_cons,
            ← ih (by simpa [isToken] using plain)]
      | token inner => simp [isToken] at plain

end Piece

theorem hasToken_eq_false_iff (text : String) : hasToken text = false ↔ textTokens text = [] :=
  (Piece.inner_ofPieces_eq_nil_iff 0 _).symm

namespace Value

mutual

/-- A value holds no token if the scan for tokens finds none in it. -/
theorem interpolated_eq_false_iff (value : Value) :
    value.interpolated = false ↔ value.tokens = [] := by
  match value with
  | .scalar (.string text) =>
      rw [interpolated, tokens, strings, List.flatMap_singleton]
      exact hasToken_eq_false_iff text
  | .scalar .null => exact ⟨fun _ => rfl, fun _ => rfl⟩
  | .scalar (.bool _) => exact ⟨fun _ => rfl, fun _ => rfl⟩
  | .scalar (.int _) => exact ⟨fun _ => rfl, fun _ => rfl⟩
  | .scalar (.float _) => exact ⟨fun _ => rfl, fun _ => rfl⟩
  | .list items =>
      rw [interpolated, tokens, strings]
      exact interpolatedItems_eq_false_iff items
  | .dict entries =>
      rw [interpolated, tokens, strings]
      exact interpolatedEntries_eq_false_iff entries

theorem interpolatedItems_eq_false_iff (items : List Value) :
    interpolatedItems items = false ↔ (stringsOfItems items).flatMap textTokens = [] := by
  match items with
  | [] => exact ⟨fun _ => rfl, fun _ => rfl⟩
  | item :: rest =>
      rw [interpolatedItems, stringsOfItems, List.flatMap_append, List.append_eq_nil_iff,
        Bool.or_eq_false_iff, interpolated_eq_false_iff item, interpolatedItems_eq_false_iff rest,
        tokens]

theorem interpolatedEntries_eq_false_iff (entries : List (String × Value)) :
    interpolatedEntries entries = false ↔ (stringsOfEntries entries).flatMap textTokens = [] := by
  match entries with
  | [] => exact ⟨fun _ => rfl, fun _ => rfl⟩
  | (key, value) :: rest =>
      rw [interpolatedEntries, stringsOfEntries, List.flatMap_cons, List.flatMap_append,
        List.append_eq_nil_iff, List.append_eq_nil_iff, Bool.or_eq_false_iff,
        Bool.or_eq_false_iff, hasToken_eq_false_iff key, interpolated_eq_false_iff value,
        interpolatedEntries_eq_false_iff rest, tokens, and_assoc]

end

mutual

/-- The value with the backslash taken from every escaped mark in its texts. Of keys that come to be
alike the last gives the value. -/
def unescaped : Value → Value
  | .scalar (.string text) => .scalar (.string (unescape text))
  | .scalar value => .scalar value
  | .list items => .list (unescapedItems items)
  | .dict entries => .dict (Entries.ofList (unescapedEntries entries))
termination_by structural value => value

def unescapedItems : List Value → List Value
  | [] => []
  | item :: rest => item.unescaped :: unescapedItems rest
termination_by structural items => items

def unescapedEntries : List (String × Value) → List (String × Value)
  | [] => []
  | (key, value) :: rest => (unescape key, value.unescaped) :: unescapedEntries rest
termination_by structural entries => entries

end

end Value

namespace Scope

open Value (stringsOfItems stringsOfEntries unescapedItems unescapedEntries)

variable (scope : Scope)

theorem resolveText_of_no_token {text : String} (plain : textTokens text = []) :
    scope.resolveText text = .pure (.string (unescape text)) := by
  have pieces := Piece.eq_map_char ((hasToken_eq_false_iff text).mpr plain)
  rw [Piece.flatMap_text_ofText] at pieces
  exact scope.resolveText_of_chars pieces

mutual

theorem resolve_of_no_token (value : Value) (plain : value.tokens = []) :
    scope.resolve value = .pure value.unescaped := by
  match value with
  | .scalar (.string text) =>
      rw [Value.tokens, Value.strings, List.flatMap_singleton] at plain
      rw [resolve]
      exact scope.resolveText_of_no_token plain
  | .scalar .null => rfl
  | .scalar (.bool _) => rfl
  | .scalar (.int _) => rfl
  | .scalar (.float _) => rfl
  | .list items =>
      rw [Value.tokens, Value.strings] at plain
      rw [resolve, resolveItems_of_no_token items plain]
      rfl
  | .dict entries =>
      rw [Value.tokens, Value.strings] at plain
      rw [resolve, resolveEntries_of_no_token [] entries plain]
      rfl

theorem resolveItems_of_no_token (items : List Value)
    (plain : (stringsOfItems items).flatMap textTokens = []) :
    scope.resolveItems items = .pure (unescapedItems items) := by
  match items with
  | [] => rfl
  | item :: rest =>
      rw [stringsOfItems, List.flatMap_append, List.append_eq_nil_iff] at plain
      rw [resolveItems, resolve_of_no_token item plain.1, resolveItems_of_no_token rest plain.2]
      rfl

theorem resolveEntries_of_no_token (done : Entries Value) (entries : List (String × Value))
    (plain : (stringsOfEntries entries).flatMap textTokens = []) :
    scope.resolveEntries done entries = .pure (Entries.putAll done (unescapedEntries entries)) := by
  match entries with
  | [] => rfl
  | (key, value) :: rest =>
      rw [stringsOfEntries, List.flatMap_cons, List.flatMap_append, List.append_eq_nil_iff,
        List.append_eq_nil_iff] at plain
      obtain ⟨here, below, later⟩ := plain
      have others := resolveEntries_of_no_token (Entries.put (unescape key) value.unescaped done)
        rest later
      rw [resolveEntries, scope.resolveText_of_no_token here, resolve_of_no_token value below]
      exact others

end

/-- Without variables no path leads anywhere. -/
theorem find?_nil (key : String) : find? [] key = none := by
  unfold find?
  split
  · rfl
  · rfl

/-- A value that resolves without variables has no tokens: each would have to select something. -/
theorem tokens_eq_nil_of_resolve {value result : Value} (empty : scope.data = [])
    (success : (scope.resolve value).outcome = .ok result) : value.tokens = [] := by
  have follows := scope.follows_resolve value
  rw [Reading.Follows, success, empty] at follows
  cases tokens : value.tokens with
  | nil => rfl
  | cons token rest =>
      rw [tokens, List.forall₂_cons_left_iff] at follows
      obtain ⟨read, -, ⟨path, -, found⟩, -⟩ := follows
      rw [find?_nil] at found
      cases found

end Scope

namespace Context

/-- Looking for tokens in a value tells whether it needs variables. It is without tokens if and only
if it resolves in a context that has no variables, whatever field it is for and whether or not its
tokens are checked. Then it resolves to the same in every context, and nothing is read for it. -/
theorem resolve_without_tokens (value : Value) :
    (∀ context : Context, context.data = [] → ∀ field unchecked,
      value.interpolated = false ↔
        ∃ result, (context.resolve value field unchecked).1 = .ok result) ∧
    (value.interpolated = false → ∀ (context : Context) field unchecked,
      (context.scope field unchecked).resolve value = ⟨[], .ok value.unescaped⟩ ∧
        context.resolve value field unchecked = (.ok value.unescaped, context)) := by
  have everywhere (plain : value.interpolated = false) (context : Context)
      (field : Option String) (unchecked : Bool) :
      (context.scope field unchecked).resolve value = ⟨[], .ok value.unescaped⟩ ∧
        context.resolve value field unchecked = (.ok value.unescaped, context) := by
    have reading : (context.scope field unchecked).resolve value = ⟨[], .ok value.unescaped⟩ :=
      Scope.resolve_of_no_token _ value (value.interpolated_eq_false_iff.mp plain)
    exact ⟨reading, by rw [resolve, reading, noted, recorded_nil]⟩
  refine ⟨fun context empty field unchecked => ⟨fun plain => ?_, ?_⟩, everywhere⟩
  · exact ⟨value.unescaped, congrArg Prod.fst (everywhere plain context field unchecked).2⟩
  · rintro ⟨result, success⟩
    exact value.interpolated_eq_false_iff.mpr
      (Scope.tokens_eq_nil_of_resolve (context.scope field unchecked) empty success)

/-- Marks that stand for no token: escaped, unclosed, and in a name. -/
def unfilled : Value :=
  .dict [("\\$\x7bname\x7d", .list [.string "\\$\x7bname\x7d", .string "$\x7bname"])]

/-- A blank token in a name. -/
def blank : Value := .dict [("$\x7b \x7d", .null)]

theorem unfilled_resolve_without_tokens :
    let nothing : Context := {}
    let named : Context := { ofEntries {} [("name", .int 1)] with tracked := some {} }
    (nothing.data = [] ∧ unfilled.interpolated = false) ∧
    (∃ result, (nothing.resolve unfilled none true).1 = .ok result) ∧
    named.resolve unfilled (some "cmd") false =
      (.ok (.dict [("$\x7bname\x7d", .list [.string "$\x7bname\x7d", .string "$\x7bname"])]),
        named) ∧
    ¬ ∃ result, (nothing.resolve blank none true).1 = .ok result := by
  intro nothing named
  have plain : unfilled.interpolated = false := by cbv
  have result : unfilled.unescaped =
      .dict [("$\x7bname\x7d", .list [.string "$\x7bname\x7d", .string "$\x7bname"])] := rfl
  obtain ⟨alone, everywhere⟩ := resolve_without_tokens unfilled
  obtain ⟨alone', -⟩ := resolve_without_tokens blank
  refine ⟨⟨rfl, plain⟩, (alone nothing rfl none true).mp plain, ?_, fun success => ?_⟩
  · rw [(everywhere plain named (some "cmd") false).2, result]
  · have impossible := (alone' nothing rfl none true).mpr success
    revert impossible
    decide

end Context

end StageTemplates
