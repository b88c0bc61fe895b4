import StageTemplates.Text.Blank
import StageTemplates.Value

set_option autoImplicit false

/-!
Values that know where they come from.
-/
namespace StageTemplates

/-- Where a node comes from: a file or an item of `vars`, and the way from its root. What is local
is not reported as used. -/
structure Origin where
  source : Option String := none
  path : List String := []
  isLocal : Bool := true
deriving DecidableEq, Repr, Inhabited

namespace Origin

def ofSource (source : String) (isLocal : Bool) : Origin := ⟨some source, [], isLocal⟩

def child (origin : Origin) (segment : String) : Origin :=
  { origin with path := origin.path ++ [segment] }

def dotted (origin : Origin) : String := ".".intercalate origin.path

def text (origin : Origin) : String := origin.source.getD "<local>" ++ ":" ++ origin.dotted

end Origin

inductive Node where
  | scalar (value : Scalar) (origin : Origin)
  | list (items : List Node) (origin : Origin)
  | dict (entries : List (String × Node)) (origin : Origin)
deriving Inhabited

/-- The number that addresses an item of a list: decimal digits, with a plus sign or not, below
`2 ^ 64`. -/
def listIndex? (segment : String) : Option Nat :=
  let digits :=
    match segment.toList with
    | '+' :: rest => rest
    | rest => rest
  if digits.isEmpty || !digits.all Char.isDigit then none
  else
    let number := digits.foldl (fun number c => number * 10 + (c.toNat - 48)) 0
    if number < Nat.pow 2 64 then some number else none

/-- The segments of a dotted path, without the white space around them. -/
def pathSegments (key : String) : List String :=
  (key.toList.splitOn '.').map fun piece => Text.trim (String.ofList piece)

namespace Node

def origin : Node → Origin
  | scalar _ origin => origin
  | list _ origin => origin
  | dict _ origin => origin

def kind : Node → Kind
  | scalar value _ => value.kind
  | list _ _ => .list
  | dict _ _ => .dict

def isDict : Node → Bool
  | dict _ _ => true
  | _ => false

def isContainer : Node → Bool
  | scalar _ _ => false
  | _ => true

mutual

/-- A value at a place; its parts lie below that place. -/
def ofValue (origin : Origin) : Value → Node
  | .scalar value => scalar value origin
  | .list items => list (ofItems origin 0 items) origin
  | .dict entries => dict (ofEntries origin entries) origin
termination_by structural value => value

def ofItems (origin : Origin) (index : Nat) : List Value → List Node
  | [] => []
  | item :: rest =>
      ofValue (origin.child (toString index)) item :: ofItems origin (index + 1) rest
termination_by structural items => items

def ofEntries (origin : Origin) : List (String × Value) → List (String × Node)
  | [] => []
  | (key, value) :: rest => (key, ofValue (origin.child key) value) :: ofEntries origin rest
termination_by structural entries => entries

end

/-- A value without a source. -/
def ofLocal (value : Value) : Node := ofValue {} value

mutual

def toValue : Node → Value
  | scalar value _ => .scalar value
  | list items _ => .list (toItems items)
  | dict entries _ => .dict (toEntries entries)
termination_by structural node => node

def toItems : List Node → List Value
  | [] => []
  | item :: rest => item.toValue :: toItems rest
termination_by structural items => items

def toEntries : List (String × Node) → List (String × Value)
  | [] => []
  | (key, node) :: rest => (key, node.toValue) :: toEntries rest
termination_by structural entries => entries

end

mutual

/-- Giving a value a place does not change it. -/
@[simp] theorem toValue_ofValue (origin : Origin) (value : Value) :
    (ofValue origin value).toValue = value := by
  match value with
  | .scalar value => rfl
  | .list items => simp only [ofValue, toValue, toItems_ofItems origin 0 items]
  | .dict entries => simp only [ofValue, toValue, toEntries_ofEntries origin entries]

@[simp] theorem toItems_ofItems (origin : Origin) (index : Nat) (items : List Value) :
    toItems (ofItems origin index items) = items := by
  match items with
  | [] => rfl
  | item :: rest =>
      simp only [ofItems, toItems, toValue_ofValue (origin.child (toString index)) item,
        toItems_ofItems origin (index + 1) rest]

@[simp] theorem toEntries_ofEntries (origin : Origin) (entries : List (String × Value)) :
    toEntries (ofEntries origin entries) = entries := by
  match entries with
  | [] => rfl
  | (key, value) :: rest =>
      simp only [ofEntries, toEntries, toValue_ofValue (origin.child key) value,
        toEntries_ofEntries origin rest]

end

@[simp] theorem origin_ofValue (origin : Origin) (value : Value) :
    (ofValue origin value).origin = origin := by
  cases value <;> rfl

@[simp] theorem keys_toEntries (entries : List (String × Node)) :
    Entries.keys (toEntries entries) = Entries.keys entries := by
  induction entries with
  | nil => rfl
  | cons entry rest ih => simpa [toEntries, Entries.keys] using ih

theorem value?_toEntries (key : String) (entries : List (String × Node)) :
    Entries.value? key (toEntries entries) = (Entries.value? key entries).map toValue := by
  induction entries with
  | nil => rfl
  | cons entry rest ih =>
      obtain ⟨name, node⟩ := entry
      by_cases same : name = key <;> simp [toEntries, Entries.value?, same, ih]

/-- Equality of nodes is that of their values. -/
def same (a b : Node) : Bool := a.toValue.same b.toValue

/-- The part of a node under a key or an index. -/
def child? (segment : String) : Node → Option Node
  | scalar _ _ => none
  | list items _ => (listIndex? segment).bind fun index => items[index]?
  | dict entries _ => Entries.value? segment entries

/-- The direct parts of a node. -/
def children : Node → List Node
  | scalar _ _ => []
  | list items _ => items
  | dict entries _ => entries.map Prod.snd

/-- What a way down from a node leads to. -/
def follow? : List String → Node → Option Node
  | [], node => some node
  | segment :: rest, node => (child? segment node).bind (follow? rest)

theorem follow?_append (first second : List String) (node : Node) :
    follow? (first ++ second) node = (follow? first node).bind (follow? second) := by
  induction first generalizing node with
  | nil => rfl
  | cons segment rest ih =>
      cases found : child? segment node with
      | none => simp [follow?, found]
      | some child => simp [follow?, found, ih]

def select? (key : String) (node : Node) : Option Node := follow? (pathSegments key) node

/-- The source and path that a scalar or a list reports when it is read. -/
def report? : Node → Option (String × String)
  | scalar _ origin => origin.source.map (·, origin.dotted)
  | list _ origin => origin.source.map (·, origin.dotted)
  | dict _ _ => none

end Node

end StageTemplates
