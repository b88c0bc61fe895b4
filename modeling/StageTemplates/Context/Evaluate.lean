import StageTemplates.Context.Basic
import StageTemplates.Shell.Arguments
import StageTemplates.Template.Check

set_option autoImplicit false

/-!
Putting variables into values. An evaluation sees the variables and the style, and gives its
outcome together with what it read up to then.
-/
namespace StageTemplates

structure Reading (α : Type) where
  reads : List Read
  outcome : Except ContextError α

namespace Reading

variable {α β : Type}

def pure (value : α) : Reading α := ⟨[], .ok value⟩

def fail (error : ContextError) : Reading α := ⟨[], .error error⟩

def bind (reading : Reading α) (next : α → Reading β) : Reading β :=
  match reading.outcome with
  | .ok value => ⟨reading.reads ++ (next value).reads, (next value).outcome⟩
  | .error error => ⟨reading.reads, .error error⟩

theorem bind_of_ok {reading : Reading α} {value : α} (success : reading.outcome = .ok value)
    (next : α → Reading β) :
    bind reading next = ⟨reading.reads ++ (next value).reads, (next value).outcome⟩ := by
  simp only [bind, success]

/-- After a failure nothing more is read. -/
theorem bind_of_error {reading : Reading α} {error : ContextError}
    (failed : reading.outcome = .error error) (next : α → Reading β) :
    bind reading next = ⟨reading.reads, .error error⟩ := by
  simp only [bind, failed]

instance : Monad Reading where
  pure := Reading.pure
  bind := Reading.bind

@[simp] theorem pure_bind (value : α) (next : α → Reading β) :
    bind (pure value) next = next value := by
  simp [bind, pure]

@[simp] theorem bind_pure (reading : Reading α) : bind reading pure = reading := by
  obtain ⟨reads, _ | _⟩ := reading <;> simp [bind, pure]

theorem bind_assoc {γ : Type} (reading : Reading α) (next : α → Reading β)
    (last : β → Reading γ) :
    bind (bind reading next) last = bind reading fun value => bind (next value) last := by
  obtain ⟨reads, _ | value⟩ := reading
  · rfl
  · rcases second : next value with ⟨more, _ | _⟩ <;> simp [bind, second]

instance : LawfulMonad Reading := LawfulMonad.mk' Reading bind_pure pure_bind bind_assoc

def ofToken : Except TokenError α → Reading α
  | .ok value => pure value
  | .error error => fail (.token error)

def ofSyntax : Except SyntaxFault α → Reading α
  | .ok value => pure value
  | .error fault => fail (.token (.grammar fault))

end Reading

/-- What an evaluation sees: the variables, how arguments are written, the name of the field being
resolved, and whether tokens go unchecked. -/
structure Scope where
  data : Entries Node
  style : Style
  field : Option String
  unchecked : Bool

namespace Scope

/-- What a dotted path leads to from the variables. -/
def find? (data : Entries Node) (key : String) : Option Read :=
  match pathSegments key with
  | [] => none
  | name :: rest =>
      match Entries.value? name data with
      | none => none
      | some node => (node.follow? rest).map (⟨name, ·⟩)

def select (data : Entries Node) (key : String) : Reading Node :=
  match find? data key with
  | some read => ⟨[read], .ok read.node⟩
  | none => .fail (.keyNotInContext key)

/-- The node that a token stands for. -/
def tokenNode (scope : Scope) (inner : List Char) : Reading Node := do
  let path ← Reading.ofSyntax (keyPath scope.unchecked inner)
  select scope.data path

/-- The text that a token stands for within other text. -/
def tokenText (scope : Scope) (inner : List Char) : Reading String := do
  let node ← scope.tokenNode inner
  let value := node.toValue
  match value.embedError? scope.field with
  | some error => .fail (.token error)
  | none => Reading.ofToken (value.render scope.style)

/-- The pieces with text in place of the tokens. -/
def filled (scope : Scope) : List Piece → Reading (List Char)
  | [] => .pure []
  | .char c :: rest => do
      let rest ← filled scope rest
      return c :: rest
  | .token inner :: rest => do
      let text ← scope.tokenText inner
      let rest ← filled scope rest
      return text.toList ++ rest

/-- A text that is one token becomes what the token stands for, of whatever type. In any other
text the tokens are filled in, and escaped ones lose their backslash. -/
def resolveText (scope : Scope) (text : String) : Reading Value :=
  let pieces := Piece.ofText text.toList
  match Piece.alone? pieces with
  | some inner => do
      let node ← scope.tokenNode inner
      return node.toValue
  | none => do
      let chars ← scope.filled pieces
      return .string (String.ofList (unescapeChars chars))

/-- The name of an entry, from what its key resolves to. -/
def entryName (scope : Scope) : Value → Reading String
  | .scalar (.string text) => .pure text
  | value => Reading.ofToken (value.render scope.style)

mutual

/-- Resolves all text of a value, keys included, each before what it names. -/
def resolve (scope : Scope) : Value → Reading Value
  | .scalar (.string text) => scope.resolveText text
  | .scalar value => .pure (.scalar value)
  | .list items => do
      let items ← resolveItems scope items
      return .list items
  | .dict entries => do
      let entries ← resolveEntries scope [] entries
      return .dict entries
termination_by structural value => value

def resolveItems (scope : Scope) : List Value → Reading (List Value)
  | [] => .pure []
  | item :: rest => do
      let item ← resolve scope item
      let rest ← resolveItems scope rest
      return item :: rest
termination_by structural items => items

/-- Resolves entries in turn; of two keys that resolve alike the later gives the value. -/
def resolveEntries (scope : Scope) (done : Entries Value) :
    List (String × Value) → Reading (Entries Value)
  | [] => .pure done
  | (key, value) :: rest => do
      let name ← scope.resolveText key
      let name ← scope.entryName name
      let value ← resolve scope value
      resolveEntries scope (Entries.put name value done) rest
termination_by structural entries => entries

end

/-- As `resolve`, but a text that is one token gives the very node it stands for. -/
def resolveNode (scope : Scope) (value : Value) : Reading Node :=
  let wrapped : Reading Node := do
    let value ← scope.resolve value
    return Node.ofLocal value
  match value with
  | .scalar (.string text) =>
      match Piece.alone? (Piece.ofText text.toList) with
      | some inner => scope.tokenNode inner
      | none => wrapped
  | _ => wrapped

end Scope

namespace Context

variable {α : Type}

def scope (context : Context) (field : Option String) (unchecked : Bool) : Scope :=
  ⟨context.data, context.style, field, unchecked⟩

/-- An outcome, with what was read noted. -/
def noted (context : Context) (reading : Reading α) : Except ContextError α × Context :=
  (reading.outcome, context.recorded reading.reads)

def select (context : Context) (key : String) : Except ContextError Node × Context :=
  context.noted (Scope.select context.data key)

def resolve (context : Context) (value : Value) (field : Option String) (unchecked : Bool) :
    Except ContextError Value × Context :=
  context.noted ((context.scope field unchecked).resolve value)

def resolveText (context : Context) (text : String) (field : Option String)
    (unchecked : Bool) : Except ContextError Value × Context :=
  context.noted ((context.scope field unchecked).resolveText text)

def resolveNode (context : Context) (value : Value) (field : Option String)
    (unchecked : Bool) : Except ContextError Node × Context :=
  context.noted ((context.scope field unchecked).resolveNode value)

end Context

end StageTemplates
