import Mathlib.Data.List.Nodup
import StageTemplates.Context.Evaluate
import StageTemplates.Proofs.Entries

set_option autoImplicit false

/-!
Values in which every dictionary names each of its entries once, and what is made of such values.
-/
namespace StageTemplates

namespace Value

mutual

/-- Every dictionary in the value names each of its entries once. -/
def Distinct : Value → Prop
  | .scalar _ => True
  | .list items => DistinctItems items
  | .dict entries => (Entries.keys entries).Nodup ∧ DistinctEntries entries
termination_by structural value => value

def DistinctItems : List Value → Prop
  | [] => True
  | item :: rest => item.Distinct ∧ DistinctItems rest
termination_by structural items => items

def DistinctEntries : List (String × Value) → Prop
  | [] => True
  | (_, value) :: rest => value.Distinct ∧ DistinctEntries rest
termination_by structural entries => entries

end

mutual

def decideDistinct : (value : Value) → Decidable value.Distinct
  | .scalar _ => .isTrue trivial
  | .list items => decideDistinctItems items
  | .dict entries =>
      have := decideDistinctEntries entries
      inferInstanceAs (Decidable ((Entries.keys entries).Nodup ∧ DistinctEntries entries))
termination_by structural value => value

def decideDistinctItems : (items : List Value) → Decidable (DistinctItems items)
  | [] => .isTrue trivial
  | item :: rest =>
      have := decideDistinct item
      have := decideDistinctItems rest
      inferInstanceAs (Decidable (item.Distinct ∧ DistinctItems rest))
termination_by structural items => items

def decideDistinctEntries : (entries : List (String × Value)) →
    Decidable (DistinctEntries entries)
  | [] => .isTrue trivial
  | (_, value) :: rest =>
      have := decideDistinct value
      have := decideDistinctEntries rest
      inferInstanceAs (Decidable (value.Distinct ∧ DistinctEntries rest))
termination_by structural entries => entries

end

instance : DecidablePred Distinct := decideDistinct

theorem distinctItems_iff (items : List Value) :
    DistinctItems items ↔ ∀ item ∈ items, item.Distinct := by
  induction items with
  | nil => simp [DistinctItems]
  | cons item rest ih => rw [DistinctItems, ih, List.forall_mem_cons]

theorem distinctEntries_iff (entries : List (String × Value)) :
    DistinctEntries entries ↔ ∀ entry ∈ entries, entry.2.Distinct := by
  induction entries with
  | nil => simp [DistinctEntries]
  | cons entry rest ih =>
      obtain ⟨key, value⟩ := entry
      rw [DistinctEntries, ih, List.forall_mem_cons]

theorem distinct_list (items : List Value) :
    Distinct (.list items) ↔ ∀ item ∈ items, item.Distinct := by
  rw [Distinct, distinctItems_iff]

theorem distinct_dict (entries : List (String × Value)) :
    Distinct (.dict entries) ↔
      (Entries.keys entries).Nodup ∧ ∀ entry ∈ entries, entry.2.Distinct := by
  rw [Distinct, distinctEntries_iff]

theorem distinct_nothing : Distinct (.dict []) :=
  (distinct_dict []).mpr ⟨List.nodup_nil, by simp⟩

theorem Distinct.value? {key : String} {value : Value} {entries : List (String × Value)}
    (distinct : Distinct (.dict entries)) (found : Entries.value? key entries = some value) :
    value.Distinct :=
  ((distinct_dict entries).mp distinct).2 (key, value) (Entries.mem_of_value? found)

end Value

namespace Node

/-- Every dictionary in the node names each of its entries once. -/
def Distinct (node : Node) : Prop := node.toValue.Distinct

theorem distinct_list (items : List Node) (origin : Origin) :
    (list items origin).Distinct ↔ ∀ item ∈ items, item.Distinct := by
  unfold Distinct
  rw [toValue, Value.distinct_list]
  induction items with
  | nil => simp [toItems]
  | cons item rest ih => rw [toItems, List.forall_mem_cons, List.forall_mem_cons, ih]

theorem distinct_dict (entries : List (String × Node)) (origin : Origin) :
    (dict entries origin).Distinct ↔
      (Entries.keys entries).Nodup ∧ ∀ entry ∈ entries, entry.2.Distinct := by
  unfold Distinct
  rw [toValue, Value.distinct_dict, keys_toEntries]
  have values : (∀ entry ∈ toEntries entries, entry.2.Distinct) ↔
      ∀ entry ∈ entries, entry.2.toValue.Distinct := by
    induction entries with
    | nil => simp [toEntries]
    | cons entry rest ih =>
        obtain ⟨key, node⟩ := entry
        rw [toEntries, List.forall_mem_cons, List.forall_mem_cons, ih]
  rw [values]

theorem distinct_ofValue {value : Value} (distinct : value.Distinct) (origin : Origin) :
    (ofValue origin value).Distinct := by
  unfold Distinct
  rwa [toValue_ofValue]

theorem Distinct.child? {segment : String} {node child : Node} (distinct : node.Distinct)
    (found : node.child? segment = some child) : child.Distinct := by
  cases node with
  | scalar value origin => cases found
  | list items origin =>
      rw [distinct_list] at distinct
      obtain ⟨index, -, there⟩ := Option.bind_eq_some_iff.mp found
      exact distinct child (List.mem_of_getElem? there)
  | dict entries origin =>
      rw [distinct_dict] at distinct
      exact distinct.2 (segment, child) (Entries.mem_of_value? found)

theorem Distinct.follow? {way : List String} {node reached : Node} (distinct : node.Distinct)
    (found : node.follow? way = some reached) : reached.Distinct := by
  induction way generalizing node with
  | nil =>
      cases found
      exact distinct
  | cons segment rest ih =>
      obtain ⟨child, first, later⟩ := Option.bind_eq_some_iff.mp found
      exact ih (distinct.child? first) later

end Node

namespace Context

/-- Each variable is named once, and so are the entries of all dictionaries among them. -/
def Distinct (context : Context) : Prop := context.toValue.Distinct

instance (context : Context) : Decidable context.Distinct :=
  inferInstanceAs (Decidable context.toValue.Distinct)

theorem distinct_iff (context : Context) :
    context.Distinct ↔
      (Entries.keys context.data).Nodup ∧ ∀ entry ∈ context.data, entry.2.Distinct :=
  Node.distinct_dict context.data {}

theorem distinct_ofEntries {entries : List (String × Value)}
    (distinct : (Value.dict entries).Distinct) (origin : Origin) :
    (ofEntries origin entries).Distinct := by
  unfold Distinct toValue ofEntries
  rwa [Node.toEntries_ofEntries]

end Context

/-- What a reading gives, if it gives something, has the property. -/
def Reading.Gives {α : Type} (reading : Reading α) (holds : α → Prop) : Prop :=
  ∀ value, reading.outcome = .ok value → holds value

namespace Reading

variable {α β : Type}

theorem gives_pure {value : α} {holds : α → Prop} (one : holds value) :
    Gives (pure value) holds := by
  intro other same
  cases same
  exact one

theorem gives_fail {holds : α → Prop} (error : ContextError) : Gives (fail error) holds := by
  intro value same
  cases same

theorem Gives.bind {reading : Reading α} {next : α → Reading β} {first : α → Prop}
    {second : β → Prop} (here : reading.Gives first)
    (there : ∀ value, first value → (next value).Gives second) :
    Gives (reading >>= next) second := by
  intro value reached
  change (Reading.bind reading next).outcome = .ok value at reached
  cases outcome : reading.outcome with
  | error error =>
      rw [bind_of_error outcome] at reached
      cases reached
  | ok middle =>
      rw [bind_of_ok outcome] at reached
      exact there middle (here middle outcome) value reached

theorem gives_any (reading : Reading α) : reading.Gives fun _ => True := fun _ _ => trivial

end Reading

namespace Scope

open Reading

/-- The dictionaries among the variables name each of their entries once. -/
def Distinct (scope : Scope) : Prop := ∀ entry ∈ scope.data, entry.2.Distinct

variable {scope : Scope}

theorem gives_tokenNode (distinct : scope.Distinct) (inner : List Char) :
    (scope.tokenNode inner).Gives Node.Distinct := by
  refine Gives.bind (gives_any _) fun path _ => ?_
  unfold select
  split
  · next read found =>
      intro node same
      cases same
      unfold find? at found
      split at found
      · cases found
      · next name rest _ =>
          split at found
          · cases found
          · next first there =>
              obtain ⟨reached, followed, rfl⟩ := Option.map_eq_some_iff.mp found
              exact (distinct (name, first) (Entries.mem_of_value? there)).follow? followed
  · exact gives_fail _

theorem gives_resolveText (distinct : scope.Distinct) (text : String) :
    (scope.resolveText text).Gives Value.Distinct := by
  unfold resolveText
  dsimp only
  split
  · refine Gives.bind (gives_tokenNode distinct _) fun node whole => ?_
    exact gives_pure whole
  · refine Gives.bind (gives_any _) fun chars _ => ?_
    exact gives_pure trivial

mutual

/-- Resolving gives values with distinct names, whatever is resolved. -/
theorem gives_resolve (distinct : scope.Distinct) (value : Value) :
    (scope.resolve value).Gives Value.Distinct := by
  match value with
  | .scalar (.string text) =>
      rw [resolve]
      exact gives_resolveText distinct text
  | .scalar .null => exact gives_pure trivial
  | .scalar (.bool _) => exact gives_pure trivial
  | .scalar (.int _) => exact gives_pure trivial
  | .scalar (.float _) => exact gives_pure trivial
  | .list items =>
      rw [resolve]
      refine Gives.bind (gives_resolveItems distinct items) fun items whole => ?_
      exact gives_pure ((Value.distinct_list items).mpr whole)
  | .dict entries =>
      rw [resolve]
      refine Gives.bind (gives_resolveEntries distinct [] entries List.nodup_nil (by simp))
        fun entries whole => ?_
      exact gives_pure whole

theorem gives_resolveItems (distinct : scope.Distinct) (items : List Value) :
    (scope.resolveItems items).Gives fun items => ∀ item ∈ items, item.Distinct := by
  match items with
  | [] => exact gives_pure (by simp)
  | item :: rest =>
      rw [resolveItems]
      refine Gives.bind (gives_resolve distinct item) fun item first => ?_
      refine Gives.bind (gives_resolveItems distinct rest) fun rest others => ?_
      exact gives_pure (List.forall_mem_cons.mpr ⟨first, others⟩)

theorem gives_resolveEntries (distinct : scope.Distinct) (done : Entries Value)
    (entries : List (String × Value)) (names : (Entries.keys done).Nodup)
    (values : ∀ entry ∈ done, entry.2.Distinct) :
    (scope.resolveEntries done entries).Gives fun entries => (Value.dict entries).Distinct := by
  match entries with
  | [] => exact gives_pure ((Value.distinct_dict done).mpr ⟨names, values⟩)
  | (key, value) :: rest =>
      rw [resolveEntries]
      refine Gives.bind (gives_any _) fun _ _ => ?_
      refine Gives.bind (gives_any _) fun name _ => ?_
      refine Gives.bind (gives_resolve distinct value) fun value whole => ?_
      exact gives_resolveEntries distinct (Entries.put name value done) rest
        (Entries.nodup_keys_put names name value) (Entries.forall_put whole values)

end

theorem gives_resolveNode (distinct : scope.Distinct) (value : Value) :
    (scope.resolveNode value).Gives Node.Distinct := by
  have wrapped : Gives (do let value ← scope.resolve value; return Node.ofLocal value)
      Node.Distinct := by
    refine Gives.bind (gives_resolve distinct value) fun value whole => ?_
    exact gives_pure (Node.distinct_ofValue whole {})
  unfold resolveNode
  dsimp only
  split
  · split
    · exact gives_tokenNode distinct _
    · exact wrapped
  · exact wrapped

end Scope

end StageTemplates
