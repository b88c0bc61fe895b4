import StageTemplates.Proofs.CheckedValues
import StageTemplates.Proofs.InTurn
import StageTemplates.Proofs.LiteralValues

set_option autoImplicit false

/-!
An evaluation goes through the tokens of a value in the order in which they stand. It reads what
each of them selects, and can fail for one of them only.
-/
namespace StageTemplates

/-- What the tokens of a text have between their braces. -/
def textTokens (text : String) : List String := (Token.ofText text).map Token.inner

/-- The tokens of a value, those of a key before those of what it names. -/
def Value.tokens (value : Value) : List String := value.strings.flatMap textTokens

section Faults

theorem findSome?_ofPieces (start : Nat) (pieces : List Piece) :
    ((Token.ofPieces start pieces).map Token.inner).findSome?
      (fun token => tokenFault? token.toList) = faultIn? pieces := by
  induction pieces generalizing start with
  | nil => rfl
  | cons piece rest ih =>
      cases piece with
      | char c => exact ih _
      | token inner =>
          rw [Token.ofPieces, List.map_cons, List.findSome?_cons, String.toList_ofList,
            faultIn?_token, ih]
          cases tokenFault? inner <;> rfl

/-- The fault of a text is that of the first token that has one. -/
theorem findSome?_textTokens (text : String) :
    (textTokens text).findSome? (fun token => tokenFault? token.toList) = textFault? text :=
  findSome?_ofPieces 0 _

namespace Value

mutual

theorem findSome?_tokens (value : Value) :
    value.tokens.findSome? (fun token => tokenFault? token.toList) = value.fault? := by
  match value with
  | .scalar (.string text) =>
      rw [tokens, strings, List.flatMap_singleton, fault?]
      exact findSome?_textTokens text
  | .scalar .null => rfl
  | .scalar (.bool _) => rfl
  | .scalar (.int _) => rfl
  | .scalar (.float _) => rfl
  | .list items =>
      rw [tokens, strings, fault?]
      exact findSome?_tokensOfItems items
  | .dict entries =>
      rw [tokens, strings, fault?]
      exact findSome?_tokensOfEntries entries

theorem findSome?_tokensOfItems (items : List Value) :
    ((stringsOfItems items).flatMap textTokens).findSome? (fun token => tokenFault? token.toList) =
      faultInItems? items := by
  match items with
  | [] => rfl
  | item :: rest =>
      rw [stringsOfItems, List.flatMap_append, List.findSome?_append, faultInItems?_cons,
        ← findSome?_tokens item, ← findSome?_tokensOfItems rest]
      rfl

theorem findSome?_tokensOfEntries (entries : List (String × Value)) :
    ((stringsOfEntries entries).flatMap textTokens).findSome?
      (fun token => tokenFault? token.toList) = faultInEntries? entries := by
  match entries with
  | [] => rfl
  | (key, value) :: rest =>
      rw [stringsOfEntries, List.flatMap_cons, List.flatMap_append, List.findSome?_append,
        List.findSome?_append, findSome?_textTokens, faultInEntries?_cons,
        ← findSome?_tokens value, ← findSome?_tokensOfEntries rest]
      rfl

end

/-- The fault is that of the first token that is no key path. -/
def FirstFault (value : Value) (fault : SyntaxFault) : Prop :=
  ∃ before token after, value.tokens = before ++ token :: after ∧
    (∀ earlier ∈ before, ∃ path, KeyPath.parse earlier = .ok path) ∧
    KeyPath.parse token = .error fault

/-- All tokens are key paths. -/
def Sound (value : Value) : Prop := ∀ token ∈ value.tokens, ∃ path, KeyPath.parse token = .ok path

end Value

theorem tokenFault?_eq_none_iff {token : String} :
    tokenFault? token.toList = none ↔ ∃ path, KeyPath.parse token = .ok path := by
  rw [tokenFault?, String.ofList_toList]
  cases KeyPath.parse token <;> simp

theorem tokenFault?_eq_some_iff {token : String} {fault : SyntaxFault} :
    tokenFault? token.toList = some fault ↔ KeyPath.parse token = .error fault := by
  rw [tokenFault?, String.ofList_toList]
  cases KeyPath.parse token <;> simp

namespace Value

theorem fault?_eq_none_iff (value : Value) : value.fault? = none ↔ value.Sound := by
  rw [← findSome?_tokens, List.findSome?_eq_none_iff]
  exact forall₂_congr fun token _ => tokenFault?_eq_none_iff

theorem fault?_eq_some_iff {value : Value} {fault : SyntaxFault} :
    value.fault? = some fault ↔ value.FirstFault fault := by
  rw [← findSome?_tokens, List.findSome?_eq_some_iff]
  constructor
  · rintro ⟨before, token, after, split, found, none⟩
    exact ⟨before, token, after, split,
      fun earlier member => tokenFault?_eq_none_iff.mp (none earlier member),
      tokenFault?_eq_some_iff.mp found⟩
  · rintro ⟨before, token, after, split, parsed, failed⟩
    exact ⟨before, token, after, split, tokenFault?_eq_some_iff.mpr failed,
      fun earlier member => tokenFault?_eq_none_iff.mpr (parsed earlier member)⟩

end Value

end Faults

section Reads

variable {α β : Type} (data : Entries Node) (unchecked : Bool)

/-- What is read for a token: what its key path leads to. -/
def ReadFor (token : String) (read : Read) : Prop :=
  ∃ path, keyPath unchecked token.toList = .ok path ∧ Scope.find? data path = some read

/-- A reading that reads for each of the tokens in turn, up to a failure which is that of one
field. -/
def Reading.Follows (tokens : List String) (reading : Reading α) : Prop :=
  match reading.outcome with
  | .ok _ => List.Forall₂ (ReadFor data unchecked) tokens reading.reads
  | .error error => error.isFieldError = true

variable {data unchecked}

namespace Reading

theorem follows_pure (value : α) : (pure value).Follows data unchecked [] := List.Forall₂.nil

theorem follows_ofToken (outcome : Except TokenError α) :
    (ofToken outcome).Follows data unchecked [] := by
  cases outcome with
  | ok value => exact List.Forall₂.nil
  | error error => rfl

theorem Follows.bind {reading : Reading α} {next : α → Reading β} {first second : List String}
    (here : reading.Follows data unchecked first)
    (there : ∀ value, (next value).Follows data unchecked second) :
    (reading >>= next).Follows data unchecked (first ++ second) := by
  change (Reading.bind reading next).Follows data unchecked _
  unfold Follows at here there ⊢
  cases outcome : reading.outcome with
  | error error =>
      rw [bind_of_error outcome]
      rwa [outcome] at here
  | ok value =>
      rw [bind_of_ok outcome]
      rw [outcome] at here
      have later := there value
      dsimp only
      cases last : (next value).outcome with
      | error error => rwa [last] at later
      | ok result =>
          rw [last] at later
          exact List.rel_append here later

/-- What reads nothing adds nothing to the tokens. -/
theorem Follows.bind_nil {reading : Reading α} {next : α → Reading β} {tokens : List String}
    (here : reading.Follows data unchecked tokens)
    (there : ∀ value, (next value).Follows data unchecked []) :
    (reading >>= next).Follows data unchecked tokens := by
  have both := here.bind there
  rwa [List.append_nil] at both

end Reading

namespace Scope

open Reading

theorem follows_tokenNode (scope : Scope) (inner : List Char) :
    (scope.tokenNode inner).Follows scope.data scope.unchecked [String.ofList inner] := by
  unfold tokenNode
  cases parsed : keyPath scope.unchecked inner with
  | error fault => rfl
  | ok path =>
      change (Reading.bind (Reading.pure path) (select scope.data)).Follows _ _ _
      rw [pure_bind, select]
      split
      · next read found =>
          refine List.Forall₂.cons ⟨path, ?_, found⟩ List.Forall₂.nil
          rwa [String.toList_ofList]
      · rfl

theorem follows_tokenText (scope : Scope) (inner : List Char) :
    (scope.tokenText inner).Follows scope.data scope.unchecked [String.ofList inner] := by
  refine (scope.follows_tokenNode inner).bind_nil fun node => ?_
  dsimp only
  split
  · rfl
  · exact follows_ofToken _

theorem follows_filled (scope : Scope) (start : Nat) (pieces : List Piece) :
    (scope.filled pieces).Follows scope.data scope.unchecked
      ((Token.ofPieces start pieces).map Token.inner) := by
  induction pieces generalizing start with
  | nil => exact follows_pure []
  | cons piece rest ih =>
      cases piece with
      | char c => exact (ih _).bind_nil fun chars => follows_pure _
      | token inner =>
          refine (scope.follows_tokenText inner).bind fun text => ?_
          exact (ih _).bind_nil fun chars => follows_pure _

theorem follows_resolveText (scope : Scope) (text : String) :
    (scope.resolveText text).Follows scope.data scope.unchecked (textTokens text) := by
  unfold resolveText textTokens Token.ofText
  dsimp only
  split
  · next inner alone =>
      rw [Piece.alone?_eq_some_iff.mp alone]
      exact (scope.follows_tokenNode inner).bind_nil fun node => follows_pure _
  · exact (scope.follows_filled 0 _).bind_nil fun chars => follows_pure _

theorem follows_entryName (scope : Scope) (value : Value) :
    (scope.entryName value).Follows data unchecked [] := by
  unfold entryName
  split
  · exact follows_pure _
  · exact follows_ofToken _

mutual

theorem follows_resolve (scope : Scope) (value : Value) :
    (scope.resolve value).Follows scope.data scope.unchecked value.tokens := by
  match value with
  | .scalar (.string text) =>
      rw [resolve, Value.tokens, Value.strings, List.flatMap_singleton]
      exact scope.follows_resolveText text
  | .scalar .null => exact follows_pure _
  | .scalar (.bool _) => exact follows_pure _
  | .scalar (.int _) => exact follows_pure _
  | .scalar (.float _) => exact follows_pure _
  | .list items =>
      rw [resolve, Value.tokens, Value.strings]
      exact (scope.follows_resolveItems items).bind_nil fun items => follows_pure _
  | .dict entries =>
      rw [resolve, Value.tokens, Value.strings]
      exact (scope.follows_resolveEntries [] entries).bind_nil fun entries => follows_pure _

theorem follows_resolveItems (scope : Scope) (items : List Value) :
    (scope.resolveItems items).Follows scope.data scope.unchecked
      ((Value.stringsOfItems items).flatMap textTokens) := by
  match items with
  | [] => exact follows_pure []
  | item :: rest =>
      rw [resolveItems, Value.stringsOfItems, List.flatMap_append]
      refine (scope.follows_resolve item).bind fun value => ?_
      exact (scope.follows_resolveItems rest).bind_nil fun others => follows_pure _

theorem follows_resolveEntries (scope : Scope) (done : Entries Value)
    (entries : List (String × Value)) :
    (scope.resolveEntries done entries).Follows scope.data scope.unchecked
      ((Value.stringsOfEntries entries).flatMap textTokens) := by
  match entries with
  | [] => exact follows_pure done
  | (key, value) :: rest =>
      rw [resolveEntries, Value.stringsOfEntries, List.flatMap_cons, List.flatMap_append]
      refine (scope.follows_resolveText key).bind fun name => ?_
      refine (scope.follows_entryName name).bind fun name => ?_
      refine (scope.follows_resolve value).bind fun value => ?_
      exact scope.follows_resolveEntries (Entries.put name value done) rest

end

end Scope

end Reads

end StageTemplates
