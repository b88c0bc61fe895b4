import Mathlib
import StageTemplates.Context.Evaluate

set_option autoImplicit false

/-!
Where the style of arguments matters outside a command. Texts never depend on it. A mapping key that
is one token standing for a dictionary is named by the dictionary's arguments; what resolves without
coming to such a key is the same under every style.
-/
namespace StageTemplates

namespace Reading

variable {α β : Type} {reading : Reading α}

/-- What follows a reading matters only for what the reading gives. -/
theorem bind_congr {next next' : α → Reading β}
    (same : ∀ value, reading.outcome = .ok value → next value = next' value) :
    reading >>= next = reading >>= next' := by
  change Reading.bind reading next = Reading.bind reading next'
  cases outcome : reading.outcome with
  | error error => rw [bind_of_error outcome, bind_of_error outcome]
  | ok value => rw [bind_of_ok outcome, bind_of_ok outcome, same value outcome]

theorem outcome_bind_of_ok {value : α} (success : reading.outcome = .ok value)
    (next : α → Reading β) : (reading >>= next).outcome = (next value).outcome := by
  change (Reading.bind reading next).outcome = _
  rw [bind_of_ok success]

theorem outcome_bind_of_error {error : ContextError} (failed : reading.outcome = .error error)
    (next : α → Reading β) : (reading >>= next).outcome = .error error := by
  change (Reading.bind reading next).outcome = _
  rw [bind_of_error failed]

end Reading

namespace Scope

open Reading

/-- The same scope with another style. -/
def withStyle (scope : Scope) (style : Style) : Scope := { scope with style }

/-- The name of an entry, where `write` says how a dictionary is written. -/
def entryNameBy (write : Entries Value → Except TokenError String) : Value → Reading String
  | .scalar value => .pure value.text
  | .list _ => .fail (.token (.nonPrimitive .list))
  | .dict entries => .ofToken (write entries)

theorem entryNameBy_arguments (scope : Scope) (value : Value) :
    entryNameBy (Shell.arguments scope.style) value = scope.entryName value := by
  cases value with
  | list items => rfl
  | dict entries => rfl
  | scalar value => cases value <;> rfl

section ResolveBy

variable (write : Entries Value → Except TokenError String)

mutual

/-- As `resolve`, where `write` says how a dictionary is written as the name of an entry. -/
def resolveBy (scope : Scope) : Value → Reading Value
  | .scalar (.string text) => scope.resolveText text
  | .scalar value => .pure (.scalar value)
  | .list items => do
      let items ← resolveItemsBy scope items
      return .list items
  | .dict entries => do
      let entries ← resolveEntriesBy scope [] entries
      return .dict entries
termination_by structural value => value

def resolveItemsBy (scope : Scope) : List Value → Reading (List Value)
  | [] => .pure []
  | item :: rest => do
      let item ← resolveBy scope item
      let rest ← resolveItemsBy scope rest
      return item :: rest
termination_by structural items => items

def resolveEntriesBy (scope : Scope) (done : Entries Value) :
    List (String × Value) → Reading (Entries Value)
  | [] => .pure done
  | (key, value) :: rest => do
      let name ← scope.resolveText key
      let name ← entryNameBy write name
      let value ← resolveBy scope value
      resolveEntriesBy scope (Entries.put name value done) rest
termination_by structural entries => entries

end

end ResolveBy

variable (scope : Scope)

mutual

/-- Resolving writes dictionaries as the arguments of the scope's style. -/
theorem resolveBy_arguments (value : Value) :
    scope.resolveBy (Shell.arguments scope.style) value = scope.resolve value := by
  match value with
  | .scalar (.string text) => rw [resolveBy, resolve]
  | .scalar .null => rfl
  | .scalar (.bool _) => rfl
  | .scalar (.int _) => rfl
  | .scalar (.float _) => rfl
  | .list items => rw [resolveBy, resolve, resolveItemsBy_arguments items]
  | .dict entries => rw [resolveBy, resolve, resolveEntriesBy_arguments [] entries]

theorem resolveItemsBy_arguments (items : List Value) :
    scope.resolveItemsBy (Shell.arguments scope.style) items = scope.resolveItems items := by
  match items with
  | [] => rfl
  | item :: rest =>
      rw [resolveItemsBy, resolveItems, resolveBy_arguments item, resolveItemsBy_arguments rest]

theorem resolveEntriesBy_arguments (done : Entries Value) (entries : List (String × Value)) :
    scope.resolveEntriesBy (Shell.arguments scope.style) done entries =
      scope.resolveEntries done entries := by
  match entries with
  | [] => rfl
  | (key, value) :: rest =>
      rw [resolveEntriesBy, resolveEntries]
      refine bind_congr fun name _ => ?_
      rw [entryNameBy_arguments]
      refine bind_congr fun name _ => ?_
      rw [resolveBy_arguments value]
      exact bind_congr fun value _ => resolveEntriesBy_arguments _ rest

end

mutual

/-- Whether resolving comes to a key that is one token standing for a dictionary. -/
def namesDict : Value → Bool
  | .scalar _ => false
  | .list items => namesDictItems items
  | .dict entries => namesDictEntries entries
termination_by structural value => value

def namesDictItems : List Value → Bool
  | [] => false
  | item :: rest => namesDict item || ((scope.resolve item).outcome.isOk && namesDictItems rest)
termination_by structural items => items

def namesDictEntries : List (String × Value) → Bool
  | [] => false
  | (key, value) :: rest =>
      match (scope.resolveText key).outcome with
      | .ok (.dict _) => true
      | .ok (.scalar _) =>
          namesDict value || ((scope.resolve value).outcome.isOk && namesDictEntries rest)
      | .ok (.list _) => false
      | .error _ => false
termination_by structural entries => entries

end

mutual

/-- Where no key stands for a dictionary, it does not matter how dictionaries are written. -/
theorem resolveBy_of_not_namesDict (write : Entries Value → Except TokenError String)
    (value : Value) (plain : scope.namesDict value = false) :
    scope.resolveBy write value = scope.resolve value := by
  match value with
  | .scalar (.string text) => rw [resolveBy, resolve]
  | .scalar .null => rfl
  | .scalar (.bool _) => rfl
  | .scalar (.int _) => rfl
  | .scalar (.float _) => rfl
  | .list items =>
      rw [namesDict] at plain
      rw [resolveBy, resolve, resolveItemsBy_of_not_namesDict write items plain]
  | .dict entries =>
      rw [namesDict] at plain
      rw [resolveBy, resolve, resolveEntriesBy_of_not_namesDict write [] entries plain]

theorem resolveItemsBy_of_not_namesDict (write : Entries Value → Except TokenError String)
    (items : List Value) (plain : scope.namesDictItems items = false) :
    scope.resolveItemsBy write items = scope.resolveItems items := by
  match items with
  | [] => rfl
  | item :: rest =>
      rw [namesDictItems, Bool.or_eq_false_iff] at plain
      rw [resolveItemsBy, resolveItems, resolveBy_of_not_namesDict write item plain.1]
      refine bind_congr fun resolved success => ?_
      rw [success] at plain
      rw [resolveItemsBy_of_not_namesDict write rest plain.2]

theorem resolveEntriesBy_of_not_namesDict (write : Entries Value → Except TokenError String)
    (done : Entries Value) (entries : List (String × Value))
    (plain : scope.namesDictEntries entries = false) :
    scope.resolveEntriesBy write done entries = scope.resolveEntries done entries := by
  match entries with
  | [] => rfl
  | (key, value) :: rest =>
      rw [namesDictEntries] at plain
      rw [resolveEntriesBy, resolveEntries]
      refine bind_congr fun name named => ?_
      rw [named] at plain
      cases name with
      | dict entries => cases plain
      | list items => rfl
      | scalar name =>
          dsimp only at plain
          rw [Bool.or_eq_false_iff] at plain
          have written : entryNameBy write (.scalar name) = scope.entryName (.scalar name) := by
            cases name <;> rfl
          rw [written]
          refine bind_congr fun name _ => ?_
          rw [resolveBy_of_not_namesDict write value plain.1]
          refine bind_congr fun resolved success => ?_
          rw [success] at plain
          exact resolveEntriesBy_of_not_namesDict write _ rest plain.2

end

mutual

/-- Where a key stands for a dictionary, resolving fails if dictionaries cannot be written. -/
theorem resolveBy_refusing (error : TokenError) (value : Value)
    (named : scope.namesDict value = true) :
    (scope.resolveBy (fun _ => .error error) value).outcome = .error (.token error) := by
  match value with
  | .scalar _ => cases named
  | .list items =>
      rw [namesDict] at named
      rw [resolveBy]
      exact outcome_bind_of_error (resolveItemsBy_refusing error items named) _
  | .dict entries =>
      rw [namesDict] at named
      rw [resolveBy]
      exact outcome_bind_of_error (resolveEntriesBy_refusing error [] entries named) _

theorem resolveItemsBy_refusing (error : TokenError) (items : List Value)
    (named : scope.namesDictItems items = true) :
    (scope.resolveItemsBy (fun _ => .error error) items).outcome = .error (.token error) := by
  match items with
  | [] => cases named
  | item :: rest =>
      rw [namesDictItems] at named
      rw [resolveItemsBy]
      cases first : scope.namesDict item with
      | true => exact outcome_bind_of_error (resolveBy_refusing error item first) _
      | false =>
          rw [first, Bool.false_or, Bool.and_eq_true] at named
          rw [resolveBy_of_not_namesDict scope _ item first]
          cases resolved : (scope.resolve item).outcome with
          | error error =>
              rw [resolved] at named
              cases named.1
          | ok item =>
              rw [outcome_bind_of_ok resolved]
              exact outcome_bind_of_error (resolveItemsBy_refusing error rest named.2) _

theorem resolveEntriesBy_refusing (error : TokenError) (done : Entries Value)
    (entries : List (String × Value)) (named : scope.namesDictEntries entries = true) :
    (scope.resolveEntriesBy (fun _ => .error error) done entries).outcome =
      .error (.token error) := by
  match entries with
  | [] => cases named
  | (key, value) :: rest =>
      rw [namesDictEntries] at named
      rw [resolveEntriesBy]
      cases read : (scope.resolveText key).outcome with
      | error error =>
          rw [read] at named
          cases named
      | ok name =>
          rw [read] at named
          rw [outcome_bind_of_ok read]
          cases name with
          | list items => cases named
          | dict entries => exact outcome_bind_of_error rfl _
          | scalar name =>
              dsimp only at named
              rw [outcome_bind_of_ok rfl]
              cases first : scope.namesDict value with
              | true => exact outcome_bind_of_error (resolveBy_refusing error value first) _
              | false =>
                  rw [first, Bool.false_or, Bool.and_eq_true] at named
                  rw [resolveBy_of_not_namesDict scope _ value first]
                  cases resolved : (scope.resolve value).outcome with
                  | error error =>
                      rw [resolved] at named
                      cases named.1
                  | ok value =>
                      rw [outcome_bind_of_ok resolved]
                      exact resolveEntriesBy_refusing error _ rest named.2

end

/-- It matters how dictionaries are written exactly where a key stands for one. -/
theorem forall_resolveBy_iff (value : Value) :
    (∀ write, (scope.resolveBy write value).outcome = (scope.resolve value).outcome) ↔
      scope.namesDict value = false := by
  constructor
  · intro same
    cases named : scope.namesDict value with
    | false => rfl
    | true =>
        have first := scope.resolveBy_refusing (.nonPrimitive .dict) value named
        have second := scope.resolveBy_refusing (.nonPrimitive .list) value named
        rw [same] at first second
        rw [first] at second
        cases second
  · exact fun plain write =>
      congrArg outcome (scope.resolveBy_of_not_namesDict write value plain)

section OutsideCommands

variable {scope} (apart : scope.field ≠ some Value.commandField)
include apart

/-- Within other text a dictionary is refused. -/
theorem tokenText_of_isDict {inner : List Char} {node : Node}
    (reached : (scope.tokenNode inner).outcome = .ok node) (isDict : node.isDict = true) :
    (scope.tokenText inner).outcome = .error (.token (.nonPrimitive .dict)) := by
  cases node with
  | scalar value origin => cases isDict
  | list items origin => cases isDict
  | dict entries origin =>
      unfold tokenText
      rw [outcome_bind_of_ok reached]
      simp only [Node.toValue, Value.embedError?, if_neg apart]
      rfl

variable (style : Style)

/-- A scalar is written alike in every style, and nothing else is written. -/
theorem tokenText_withStyle (inner : List Char) :
    (scope.withStyle style).tokenText inner = scope.tokenText inner := by
  unfold tokenText
  refine bind_congr fun node _ => ?_
  cases node with
  | scalar value origin => rfl
  | list items origin => rfl
  | dict entries origin =>
      have refused : Value.embedError? scope.field (Node.dict entries origin).toValue =
          some (.nonPrimitive .dict) := if_neg apart
      dsimp only [withStyle]
      rw [refused]

theorem filled_withStyle (pieces : List Piece) :
    (scope.withStyle style).filled pieces = scope.filled pieces := by
  induction pieces with
  | nil => rfl
  | cons piece rest ih =>
      cases piece with
      | char c => rw [filled, filled, ih]
      | token inner => rw [filled, filled, ih, tokenText_withStyle apart]

theorem resolveText_withStyle (text : String) :
    (scope.withStyle style).resolveText text = scope.resolveText text := by
  unfold resolveText
  dsimp only
  split
  · rfl
  · rw [filled_withStyle apart]

end OutsideCommands

mutual

theorem resolveBy_withStyle (apart : scope.field ≠ some Value.commandField) (style : Style)
    (write : Entries Value → Except TokenError String) (value : Value) :
    (scope.withStyle style).resolveBy write value = scope.resolveBy write value := by
  match value with
  | .scalar (.string text) =>
      rw [resolveBy, resolveBy]
      exact resolveText_withStyle apart style text
  | .scalar .null => rfl
  | .scalar (.bool _) => rfl
  | .scalar (.int _) => rfl
  | .scalar (.float _) => rfl
  | .list items => rw [resolveBy, resolveBy, resolveItemsBy_withStyle apart style write items]
  | .dict entries =>
      rw [resolveBy, resolveBy, resolveEntriesBy_withStyle apart style write [] entries]

theorem resolveItemsBy_withStyle (apart : scope.field ≠ some Value.commandField) (style : Style)
    (write : Entries Value → Except TokenError String) (items : List Value) :
    (scope.withStyle style).resolveItemsBy write items = scope.resolveItemsBy write items := by
  match items with
  | [] => rfl
  | item :: rest =>
      rw [resolveItemsBy, resolveItemsBy, resolveBy_withStyle apart style write item,
        resolveItemsBy_withStyle apart style write rest]

theorem resolveEntriesBy_withStyle (apart : scope.field ≠ some Value.commandField) (style : Style)
    (write : Entries Value → Except TokenError String) (done : Entries Value)
    (entries : List (String × Value)) :
    (scope.withStyle style).resolveEntriesBy write done entries =
      scope.resolveEntriesBy write done entries := by
  match entries with
  | [] => rfl
  | (key, value) :: rest =>
      rw [resolveEntriesBy, resolveEntriesBy, resolveText_withStyle apart]
      refine bind_congr fun _ _ => bind_congr fun name _ => ?_
      rw [resolveBy_withStyle apart style write value]
      exact bind_congr fun value _ => resolveEntriesBy_withStyle apart style write _ rest

end

/-- All that the style decides is how the keys are written that stand for dictionaries. -/
theorem resolve_withStyle (apart : scope.field ≠ some Value.commandField) (style : Style)
    (value : Value) :
    (scope.withStyle style).resolve value = scope.resolveBy (Shell.arguments style) value := by
  rw [← resolveBy_withStyle scope apart style, ← resolveBy_arguments]
  rfl

end Scope

namespace Context

/-- Outside a command the style decides how keys are written that stand for dictionaries, nothing
else: a dictionary within other text is refused, and it matters for the outcome how dictionaries are
written if and only if such a key is come to. Where none is, the outcome is the same under every
style. -/
theorem resolve_style_iff {field : Option String} (apart : field ≠ some Value.commandField)
    (context : Context) (value : Value) (unchecked : Bool) :
    let scope := context.scope field unchecked
    (∀ inner node, (scope.tokenNode inner).outcome = .ok node → node.isDict = true →
      (scope.tokenText inner).outcome = .error (.token (.nonPrimitive .dict))) ∧
    (∀ style, ((context.withStyle style).resolve value field unchecked).1 =
      (scope.resolveBy (Shell.arguments style) value).outcome) ∧
    ((∀ write, (scope.resolveBy write value).outcome = (context.resolve value field unchecked).1) ↔
      scope.namesDict value = false) ∧
    (scope.namesDict value = false → ∀ style,
      ((context.withStyle style).resolve value field unchecked).1 =
        (context.resolve value field unchecked).1) := by
  intro scope
  have outside : scope.field ≠ some Value.commandField := apart
  have restyled : ∀ style, ((context.withStyle style).resolve value field unchecked).1 =
      (scope.resolveBy (Shell.arguments style) value).outcome := fun style =>
    congrArg Reading.outcome (scope.resolve_withStyle outside style value)
  refine ⟨fun inner node => Scope.tokenText_of_isDict outside, restyled,
    scope.forall_resolveBy_iff value, fun plain style => ?_⟩
  rw [restyled style]
  exact (scope.forall_resolveBy_iff value).mpr plain _

/-- A dictionary of switches, one of them off, and a name. -/
def switches : Context :=
  ofEntries {} [("args", .dict [("quiet", .bool false)]), ("name", .string "log")]

/-- A token that stands for the dictionary as a value, below a key with a token in it. -/
theorem switches_resolve_style_iff :
    let value : Value := .dict [("${name}.txt", .list [.string "${args}"])]
    some "outs" ≠ some Value.commandField ∧
    (switches.scope (some "outs") false).namesDict value = false ∧
    ((switches.withStyle ⟨.booleanOptional, .append⟩).resolve value (some "outs") false).1 =
      .ok (.dict [("log.txt", .list [.dict [("quiet", .bool false)]])]) := by
  intro value
  have apart : some "outs" ≠ some Value.commandField := by decide
  have plain : (switches.scope (some "outs") false).namesDict value = false := by cbv
  obtain ⟨-, -, -, same⟩ := resolve_style_iff apart switches value false
  refine ⟨apart, plain, (same plain _).trans ?_⟩
  cbv

/-- A key that stands for the dictionary is named as the style says, in any field. -/
theorem not_resolve_same_in_every_style :
    ¬ ∀ (context : Context) (value : Value) (field : Option String) (unchecked : Bool)
      (style : Style), field ≠ some Value.commandField →
        ((context.withStyle style).resolve value field unchecked).1 =
          (context.resolve value field unchecked).1 := by
  intro same
  have agreed := same switches (.dict [("${args}", .int 1)]) (some "outs") false
    ⟨.booleanOptional, .nargs⟩ (by decide)
  have optional : ((switches.withStyle ⟨.booleanOptional, .nargs⟩).resolve
      (.dict [("${args}", .int 1)]) (some "outs") false).1 =
        .ok (.dict [("--no-quiet", .int 1)]) := by
    cbv
  have standard : (switches.resolve (.dict [("${args}", .int 1)]) (some "outs") false).1 =
      .ok (.dict [("", .int 1)]) := by
    cbv
  rw [optional, standard] at agreed
  simp at agreed

end Context

end StageTemplates
