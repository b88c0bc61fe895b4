import StageTemplates.Proofs.UncheckedTokens

set_option autoImplicit false

/-!
A value can be checked for faults in its tokens before it is resolved, or each token can be checked
when resolving comes to it. Both go through the tokens in one order, so the first fault is the same.
-/
namespace StageTemplates

section Arguments

variable (fault : SyntaxFault)

theorem Shell.itemWord_ne_grammar (key : String) (item : Value) :
    itemWord key item ≠ .error (.grammar fault) := by
  unfold itemWord
  split <;> simp

theorem Shell.itemWords_ne_grammar (key : String) (items : List Value) :
    itemWords key items ≠ .error (.grammar fault) := by
  induction items with
  | nil => simp [itemWords]
  | cons item rest ih =>
      have here := itemWord_ne_grammar fault key item
      rw [itemWords]
      split
      · next error failed => simpa [failed] using here
      · split
        · next error failed => simpa [failed] using ih
        · simp

theorem Shell.entryWords_ne_grammar (style : Style) (key : String) (value : Value) :
    entryWords style key value ≠ .error (.grammar fault) := by
  unfold entryWords
  split
  case h_5 items =>
    have inside := itemWords_ne_grammar fault key items
    split
    · next error failed => simpa [failed] using inside
    · simp
  all_goals simp

theorem Shell.words_ne_grammar (style : Style) (entries : Entries Value) :
    words style entries ≠ .error (.grammar fault) := by
  induction entries with
  | nil => simp [words]
  | cons entry rest ih =>
      obtain ⟨key, value⟩ := entry
      have here := entryWords_ne_grammar fault style key value
      rw [words]
      split
      · next error failed => simpa [failed] using here
      · split
        · next error failed => simpa [failed] using ih
        · simp

/-- Writing a value within text fails for what the value holds, never for the syntax of a token. -/
theorem Value.render_ne_grammar (style : Style) (value : Value) :
    value.render style ≠ .error (.grammar fault) := by
  cases value with
  | scalar value => simp [render]
  | list items => simp [render]
  | dict entries =>
      have written := Shell.words_ne_grammar fault style (flatten entries)
      rw [render, Shell.arguments]
      split
      · simp
      · next error failed => simpa [failed] using written

theorem Value.embedError?_ne_grammar (field : Option String) (value : Value) :
    value.embedError? field ≠ some (.grammar fault) := by
  unfold embedError?
  split
  · simp
  · split <;> simp
  · simp

end Arguments

namespace Reading

variable {α β : Type}

/-- A reading that fails for the syntax of a token only where a check finds a fault: without one it
does not, and with one it fails, for this fault if for one of syntax. -/
def Agrees (reading : Reading α) : Option SyntaxFault → Prop
  | none => ∀ fault, reading.outcome ≠ .error (.token (.grammar fault))
  | some fault => ∃ error, reading.outcome = .error error ∧
      ∀ other, error = .token (.grammar other) → other = fault

theorem agrees_pure (value : α) : (pure value).Agrees none := by
  intro fault impossible
  cases impossible

theorem agrees_ofToken {outcome : Except TokenError α}
    (other : ∀ fault, outcome ≠ .error (.grammar fault)) : (ofToken outcome).Agrees none := by
  intro fault same
  cases outcome with
  | ok value => cases same
  | error error =>
      cases same
      exact other fault rfl

/-- A check that goes on where it found nothing agrees with a reading that goes on where it did not
fail. -/
theorem Agrees.bind {reading : Reading α} {next : α → Reading β} {first second : Option SyntaxFault}
    (here : reading.Agrees first) (there : ∀ value, (next value).Agrees second) :
    (reading >>= next).Agrees (first.or second) := by
  change (Reading.bind reading next).Agrees _
  cases outcome : reading.outcome with
  | ok value =>
      rw [bind_of_ok outcome]
      cases first with
      | none => exact there value
      | some fault =>
          obtain ⟨error, failed, -⟩ := here
          rw [outcome] at failed
          cases failed
  | error error =>
      rw [bind_of_error outcome]
      have cause : ∀ fault, first = none → error ≠ .token (.grammar fault) := by
        rintro fault rfl same
        exact here fault (same ▸ outcome)
      cases first with
      | none =>
          cases second with
          | none =>
              intro fault same
              exact cause fault rfl (Except.error.inj same)
          | some fault => exact ⟨error, rfl, fun other same => absurd same (cause other rfl)⟩
      | some fault =>
          obtain ⟨same, failed, which⟩ := here
          rw [outcome] at failed
          cases failed
          exact ⟨error, rfl, which⟩

/-- What the check does not look at adds nothing to it. -/
theorem Agrees.bind_none {reading : Reading α} {next : α → Reading β} {first : Option SyntaxFault}
    (here : reading.Agrees first) (there : ∀ value, (next value).Agrees none) :
    (reading >>= next).Agrees first := by
  have both := here.bind there
  rwa [Option.or_none] at both

theorem Agrees.none_bind {reading : Reading α} {next : α → Reading β} {second : Option SyntaxFault}
    (here : reading.Agrees none) (there : ∀ value, (next value).Agrees second) :
    (reading >>= next).Agrees second := by
  have both := here.bind there
  rwa [Option.none_or] at both

end Reading

/-- The fault of a token, if it has one. -/
def tokenFault? (inner : List Char) : Option SyntaxFault :=
  match KeyPath.parse (String.ofList inner) with
  | .ok _ => none
  | .error fault => some fault

theorem faultIn?_token (inner : List Char) (rest : List Piece) :
    faultIn? (.token inner :: rest) = (tokenFault? inner).or (faultIn? rest) := by
  rw [faultIn?, tokenFault?]
  split <;> simp_all

namespace Value

theorem faultInItems?_cons (item : Value) (rest : List Value) :
    faultInItems? (item :: rest) = item.fault?.or (faultInItems? rest) := by
  rw [faultInItems?]
  cases item.fault? <;> rfl

theorem faultInEntries?_cons (key : String) (value : Value) (rest : List (String × Value)) :
    faultInEntries? ((key, value) :: rest) =
      (textFault? key).or (value.fault?.or (faultInEntries? rest)) := by
  rw [faultInEntries?]
  cases textFault? key with
  | some fault => rfl
  | none => cases value.fault? <;> rfl

end Value

namespace Scope

open Reading

variable {scope : Scope}

theorem agrees_select (data : Entries Node) (key : String) : (select data key).Agrees none := by
  intro fault same
  unfold select at same
  split at same <;> cases same

theorem agrees_entryName (scope : Scope) (value : Value) : (scope.entryName value).Agrees none := by
  unfold entryName
  split
  · exact agrees_pure _
  · exact agrees_ofToken fun fault => Value.render_ne_grammar fault scope.style _

section Checked

variable (checked : scope.unchecked = false)
include checked

theorem agrees_tokenNode (inner : List Char) :
    (scope.tokenNode inner).Agrees (tokenFault? inner) := by
  have parsed : (ofSyntax (keyPath scope.unchecked inner)).Agrees (tokenFault? inner) := by
    have path : keyPath scope.unchecked inner = KeyPath.parse (String.ofList inner) := by
      rw [checked]
      rfl
    rw [path, tokenFault?]
    cases KeyPath.parse (String.ofList inner) with
    | ok path => exact agrees_pure path
    | error fault =>
        refine ⟨_, rfl, fun other same => ?_⟩
        cases same
        rfl
  exact parsed.bind_none fun path => agrees_select scope.data path

theorem agrees_tokenText (inner : List Char) :
    (scope.tokenText inner).Agrees (tokenFault? inner) := by
  refine (agrees_tokenNode checked inner).bind_none fun node => ?_
  dsimp only
  split
  · next error refused =>
      intro fault same
      cases same
      exact Value.embedError?_ne_grammar fault scope.field node.toValue refused
  · exact agrees_ofToken fun fault => Value.render_ne_grammar fault scope.style _

theorem agrees_filled (pieces : List Piece) : (scope.filled pieces).Agrees (faultIn? pieces) := by
  induction pieces with
  | nil => exact agrees_pure []
  | cons piece rest ih =>
      cases piece with
      | char c => exact ih.bind_none fun chars => agrees_pure _
      | token inner =>
          rw [faultIn?_token]
          refine (agrees_tokenText checked inner).bind fun text => ?_
          exact ih.bind_none fun chars => agrees_pure _

theorem agrees_resolveText (text : String) :
    (scope.resolveText text).Agrees (textFault? text) := by
  unfold resolveText textFault?
  dsimp only
  generalize Piece.ofText text.toList = pieces
  split
  · next inner alone =>
      rw [Piece.alone?_eq_some_iff.mp alone, faultIn?_token, faultIn?, Option.or_none]
      exact (agrees_tokenNode checked inner).bind_none fun node => agrees_pure _
  · exact (agrees_filled checked pieces).bind_none fun chars => agrees_pure _

omit checked

mutual

/-- Resolving with checks comes to the tokens in the order of the check: a key, then what it
names. -/
theorem agrees_resolve (checked : scope.unchecked = false) (value : Value) :
    (scope.resolve value).Agrees value.fault? := by
  match value with
  | .scalar (.string text) =>
      rw [resolve, Value.fault?]
      exact agrees_resolveText checked text
  | .scalar .null => exact agrees_pure _
  | .scalar (.bool _) => exact agrees_pure _
  | .scalar (.int _) => exact agrees_pure _
  | .scalar (.float _) => exact agrees_pure _
  | .list items =>
      rw [resolve, Value.fault?]
      exact (agrees_resolveItems checked items).bind_none fun items => agrees_pure _
  | .dict entries =>
      rw [resolve, Value.fault?]
      exact (agrees_resolveEntries checked [] entries).bind_none fun entries => agrees_pure _

theorem agrees_resolveItems (checked : scope.unchecked = false) (items : List Value) :
    (scope.resolveItems items).Agrees (Value.faultInItems? items) := by
  match items with
  | [] => exact agrees_pure []
  | item :: rest =>
      rw [resolveItems, Value.faultInItems?_cons]
      refine (agrees_resolve checked item).bind fun value => ?_
      exact (agrees_resolveItems checked rest).bind_none fun others => agrees_pure _

theorem agrees_resolveEntries (checked : scope.unchecked = false) (done : Entries Value)
    (entries : List (String × Value)) :
    (scope.resolveEntries done entries).Agrees (Value.faultInEntries? entries) := by
  match entries with
  | [] => exact agrees_pure done
  | (key, value) :: rest =>
      rw [resolveEntries, Value.faultInEntries?_cons]
      refine (agrees_resolveText checked key).bind fun name => ?_
      refine (agrees_entryName scope name).none_bind fun name => ?_
      refine (agrees_resolve checked value).bind fun value => ?_
      exact agrees_resolveEntries checked (Entries.put name value done) rest

end

end Checked

end Scope

namespace Context

/-- Checking a value first and checking its tokens on the way agree. Where the check finds nothing,
resolving gives the same and records the same with checks and without, and fails for the syntax of
no token. Where it finds a fault, resolving with checks fails, and if for the syntax of a token,
then for this very fault. -/
theorem resolve_of_check (context : Context) (value : Value) (field : Option String) :
    (value.fault? = none →
      context.resolve value field true = context.resolve value field false ∧
      ∀ unchecked fault,
        (context.resolve value field unchecked).1 ≠ .error (.token (.grammar fault))) ∧
    ∀ fault, value.fault? = some fault →
      ∃ error, (context.resolve value field false).1 = .error error ∧
        ∀ other, error = .token (.grammar other) → other = fault := by
  have agrees : ((context.scope field false).resolve value).Agrees value.fault? :=
    Scope.agrees_resolve rfl value
  constructor
  · intro sound
    have same : context.resolve value field true = context.resolve value field false := by
      have readings := Scope.resolve_withUnchecked (context.scope field false) true value sound
      exact congrArg context.noted readings
    rw [sound] at agrees
    refine ⟨same, fun unchecked fault => ?_⟩
    cases unchecked with
    | false => exact agrees fault
    | true =>
        rw [same]
        exact agrees fault
  · intro fault found
    rwa [found] at agrees

def settings : Context :=
  ofEntries {} [("name", .string "net"), ("net", .dict [("depth", .int 3)])]

/-- The second list fails for a name that is missing before it comes to its fault. -/
theorem settings_resolve_of_check :
    let sound : Value := .dict [("$\x7bname\x7d", .string "at $\x7bnet[depth]\x7d")]
    let faulty : Value := .list [.string "$\x7bmissing\x7d", .string "$\x7bnet.\x7d"]
    (sound.fault? = none ∧ settings.resolve sound none true = settings.resolve sound none false ∧
      (settings.resolve sound none true).1 = .ok (.dict [("net", .string "at 3")])) ∧
    faulty.fault? = some ⟨"net.", 3, .endOfText⟩ ∧
      ∃ error, (settings.resolve faulty none false).1 = .error error ∧
        ∀ other, error = .token (.grammar other) → other = ⟨"net.", 3, .endOfText⟩ := by
  intro sound faulty
  have whole : sound.fault? = none := by cbv
  have fault : faulty.fault? = some ⟨"net.", 3, .endOfText⟩ := by cbv
  obtain ⟨same, -⟩ := (resolve_of_check settings sound none).1 whole
  refine ⟨⟨whole, same, by cbv⟩, fault, ?_⟩
  exact (resolve_of_check settings faulty none).2 _ fault

end Context

end StageTemplates
