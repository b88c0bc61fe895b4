import StageTemplates.Proofs.DottedPaths
import StageTemplates.Proofs.Outlines

set_option autoImplicit false

/-!
Ways through dictionaries from a node: what they lead to, the names that stand where they end, and
the order in which they come when the node is gone through from top to bottom.
-/
namespace StageTemplates

namespace Node

/-- What a way through dictionaries leads to. -/
def held? : (way : List String) → Node → Option Node
  | [], node => some node
  | key :: way, .dict entries _ => (Entries.value? key entries).bind (held? way)
  | _ :: _, _ => none

/-- The names in a dictionary, and none in anything else. -/
def names : Node → List String
  | .dict entries _ => Entries.keys entries
  | _ => []

/-- The names in the dictionary that a way leads to. -/
def namesAt (way : List String) (node : Node) : List String :=
  ((node.held? way).map names).getD []

/-- Whether a way comes to a scalar or a list before it ends. -/
def bars : (way : List String) → Node → Bool
  | [], _ => false
  | key :: way, .dict entries _ => ((Entries.value? key entries).map (bars way)).getD false
  | _ :: _, _ => true

mutual

/-- All ways that lead to something, each before those that go on from it and these before those of
later entries. -/
def ways : Node → List (List String)
  | .dict entries _ => [] :: waysIn entries
  | .list _ _ => [[]]
  | .scalar _ _ => [[]]
termination_by structural node => node

def waysIn : List (String × Node) → List (List String)
  | [] => []
  | (key, node) :: rest => node.ways.map (key :: ·) ++ waysIn rest
termination_by structural entries => entries

end

/-- Two nodes are at odds at a way if it leads somewhere from both, and not to dictionaries. -/
def Clashes (present added : Node) (way : List String) : Prop :=
  ∃ one other, present.held? way = some one ∧ added.held? way = some other ∧
    ¬ (one.isDict = true ∧ other.isDict = true)

section

variable {key : String} {way : List String} {node part : Node}

@[simp] theorem held?_nil (node : Node) : node.held? [] = some node := by
  cases node <;> rfl

theorem held?_dict_cons (entries : Entries Node) (origin : Origin) (key : String)
    (way : List String) :
    (dict entries origin).held? (key :: way) =
      (Entries.value? key entries).bind (held? way) := rfl

theorem held?_cons_of_not_dict (plain : node.isDict = false) (key : String) (way : List String) :
    node.held? (key :: way) = none := by
  cases node with
  | dict entries origin => cases plain
  | scalar value origin => rfl
  | list items origin => rfl

theorem bars_cons_of_not_dict (plain : node.isDict = false) (key : String) (way : List String) :
    node.bars (key :: way) = true := by
  cases node with
  | dict entries origin => cases plain
  | scalar value origin => rfl
  | list items origin => rfl

theorem names_of_not_dict (plain : node.isDict = false) : node.names = [] := by
  cases node with
  | dict entries origin => cases plain
  | scalar value origin => rfl
  | list items origin => rfl

theorem exists_of_isDict (isDict : node.isDict = true) :
    ∃ entries origin, node = dict entries origin := by
  cases node with
  | dict entries origin => exact ⟨entries, origin, rfl⟩
  | scalar value origin => cases isDict
  | list items origin => cases isDict

theorem held?_append (first second : List String) (node : Node) :
    node.held? (first ++ second) = (node.held? first).bind (held? second) := by
  induction first generalizing node with
  | nil => rw [List.nil_append, held?_nil, Option.bind_some]
  | cons key rest ih =>
      cases node with
      | scalar value origin => rfl
      | list items origin => rfl
      | dict entries origin =>
          rw [List.cons_append, held?_dict_cons, held?_dict_cons]
          cases Entries.value? key entries with
          | none => rfl
          | some child => exact ih child

/-- Only from a dictionary does a way go on. -/
theorem isDict_of_held?_cons (found : node.held? (key :: way) = some part) :
    node.isDict = true := by
  cases kind : node.isDict with
  | true => rfl
  | false =>
      rw [held?_cons_of_not_dict kind] at found
      cases found

theorem Distinct.held? (distinct : node.Distinct) (found : node.held? way = some part) :
    part.Distinct := by
  induction way generalizing node with
  | nil =>
      rw [held?_nil] at found
      exact Option.some.inj found ▸ distinct
  | cons key way ih =>
      cases node with
      | scalar value origin => cases found
      | list items origin => cases found
      | dict entries origin =>
          obtain ⟨child, there, later⟩ := Option.bind_eq_some_iff.mp found
          exact ih (distinct.child? there) later

theorem outline_eq_map_held? (node : Node) (way : List String) :
    node.outline way = (node.held? way).map mark := by
  induction way generalizing node with
  | nil =>
      rw [held?_nil]
      rfl
  | cons key way ih =>
      cases node with
      | scalar value origin => rfl
      | list items origin => rfl
      | dict entries origin =>
          rw [outline_dict, Outline.ofEntries, held?_dict_cons]
          cases Entries.value? key entries with
          | none => rfl
          | some child => exact ih child

theorem mark_eq_dict_iff : node.mark = .dict ↔ node.isDict = true := by
  cases node <;> simp [mark, isDict]

/-- Nodes that are at odds nowhere are those whose outlines fit. -/
theorem fits_iff_forall_not_clashes {present added : Node} :
    present.outline.Fits added.outline ↔ ∀ way, ¬ present.Clashes added way := by
  constructor
  · rintro fits way ⟨one, other, here, there, apart⟩
    have both := fits way one.mark other.mark
      (by rw [outline_eq_map_held?, here, Option.map_some])
      (by rw [outline_eq_map_held?, there, Option.map_some])
    exact apart ⟨mark_eq_dict_iff.mp both.1, mark_eq_dict_iff.mp both.2⟩
  · intro none way mark other here there
    rw [outline_eq_map_held?] at here there
    obtain ⟨one, found, rfl⟩ := Option.map_eq_some_iff.mp here
    obtain ⟨two, stands, rfl⟩ := Option.map_eq_some_iff.mp there
    by_contra apart
    rw [mark_eq_dict_iff, mark_eq_dict_iff] at apart
    exact none way ⟨one, two, found, stands, apart⟩

/-- A way comes to a scalar or a list before its end if one stands on some way that it continues. -/
theorem bars_iff :
    node.bars way = true ↔ ∃ above below leaf, way = above ++ below ∧ below ≠ [] ∧
      node.held? above = some leaf ∧ leaf.isDict = false := by
  induction way generalizing node with
  | nil => simp [bars]
  | cons key way ih =>
      have plain : node.isDict = false →
          (node.bars (key :: way) = true ↔ ∃ above below leaf, key :: way = above ++ below ∧
            below ≠ [] ∧ node.held? above = some leaf ∧ leaf.isDict = false) := by
        intro leaf
        exact iff_of_true (bars_cons_of_not_dict leaf key way)
          ⟨[], key :: way, node, rfl, List.cons_ne_nil _ _, held?_nil node, leaf⟩
      cases node with
      | scalar value origin => exact plain rfl
      | list items origin => exact plain rfl
      | dict entries origin =>
          constructor
          · intro barred
            cases found : Entries.value? key entries with
            | none => simp [bars, found] at barred
            | some child =>
                have later : child.bars way = true := by simpa [bars, found] using barred
                obtain ⟨above, below, leaf, rfl, more, stands, kind⟩ := ih.mp later
                refine ⟨key :: above, below, leaf, rfl, more, ?_, kind⟩
                rw [held?_dict_cons, found]
                exact stands
          · rintro ⟨above, below, leaf, split, more, stands, kind⟩
            cases above with
            | nil =>
                rw [held?_nil] at stands
                cases stands
                cases kind
            | cons first above =>
                obtain ⟨rfl, rfl⟩ := List.cons.inj split
                obtain ⟨child, found, stands⟩ := Option.bind_eq_some_iff.mp stands
                have later := ih.mpr ⟨above, below, leaf, rfl, more, stands, kind⟩
                simpa [bars, found] using later

/-- Past a scalar or a list nothing stands. -/
theorem held?_of_bars (barred : node.bars way = true) : node.held? way = none := by
  obtain ⟨above, below, leaf, rfl, more, stands, kind⟩ := bars_iff.mp barred
  obtain ⟨key, below, rfl⟩ := List.exists_cons_of_ne_nil more
  rw [held?_append, stands, Option.bind_some, held?_cons_of_not_dict kind]

/-- A way through dictionaries is a way to be followed. -/
theorem follow?_of_held? (found : node.held? way = some part) : node.follow? way = some part := by
  induction way generalizing node with
  | nil =>
      rw [held?_nil] at found
      exact found
  | cons key way ih =>
      cases node with
      | scalar value origin => cases found
      | list items origin => cases found
      | dict entries origin =>
          obtain ⟨child, there, later⟩ := Option.bind_eq_some_iff.mp found
          exact Option.bind_eq_some_iff.mpr ⟨child, there, ih later⟩

/-- What is followed to a scalar or a list goes through dictionaries up to the first list, or to the
end. -/
theorem exists_held?_of_follow? (found : node.follow? way = some part)
    (leaf : part.isDict = false) :
    ∃ front back first, way = front ++ back ∧ node.held? front = some first ∧
      first.isDict = false ∧ first.follow? back = some part := by
  induction way generalizing node with
  | nil =>
      cases found
      exact ⟨[], [], part, rfl, held?_nil part, leaf, rfl⟩
  | cons key way ih =>
      cases kind : node.isDict with
      | false => exact ⟨[], key :: way, node, rfl, held?_nil node, kind, found⟩
      | true =>
          cases node with
          | scalar value origin => cases kind
          | list items origin => cases kind
          | dict entries origin =>
              obtain ⟨child, there, later⟩ := Option.bind_eq_some_iff.mp found
              obtain ⟨front, back, first, rfl, stands, plain, reached⟩ := ih later
              refine ⟨key :: front, back, first, rfl, ?_, plain, reached⟩
              exact Option.bind_eq_some_iff.mpr ⟨child, there, stands⟩

end

theorem nil_mem_ways (node : Node) : [] ∈ node.ways := by
  cases node <;> simp [ways]

theorem exists_of_mem_waysIn {entries : List (String × Node)} {way : List String}
    (member : way ∈ waysIn entries) :
    ∃ key rest, way = key :: rest ∧ key ∈ Entries.keys entries := by
  induction entries with
  | nil => cases member
  | cons entry rest ih =>
      obtain ⟨key, node⟩ := entry
      rw [waysIn, List.mem_append, List.mem_map] at member
      rcases member with ⟨below, -, rfl⟩ | later
      · exact ⟨key, below, rfl, List.mem_cons_self⟩
      · obtain ⟨name, below, rfl, inside⟩ := ih later
        exact ⟨name, below, rfl, List.mem_cons_of_mem _ inside⟩

mutual

/-- The ways listed are those that lead to something. -/
theorem mem_ways_iff (node : Node) (distinct : node.Distinct) (way : List String) :
    way ∈ node.ways ↔ ∃ part, node.held? way = some part := by
  match node with
  | .scalar value origin => cases way <;> simp [ways, held?]
  | .list items origin => cases way <;> simp [ways, held?]
  | .dict entries origin =>
      cases way with
      | nil => simp [ways]
      | cons key way =>
          have inside := cons_mem_waysIn_iff entries ((distinct_dict entries origin).mp distinct)
            key way
          rw [ways, List.mem_cons, or_iff_right (List.cons_ne_nil key way), inside]
          exact Iff.rfl

theorem cons_mem_waysIn_iff (entries : List (String × Node))
    (distinct : (Entries.keys entries).Nodup ∧ ∀ entry ∈ entries, entry.2.Distinct) (key : String)
    (way : List String) :
    key :: way ∈ waysIn entries ↔
      ∃ part, (Entries.value? key entries).bind (held? way) = some part := by
  match entries with
  | [] => simp [waysIn]
  | (name, node) :: rest =>
      rw [Entries.keys_cons, List.nodup_cons, List.forall_mem_cons] at distinct
      obtain ⟨⟨absent, names⟩, here, later⟩ := distinct
      have others := cons_mem_waysIn_iff rest ⟨names, later⟩ key way
      rw [waysIn, List.mem_append, others]
      by_cases same : name = key
      · subst same
        have first := mem_ways_iff node here way
        rw [Entries.value?_cons_self, (Entries.value?_eq_none_iff name rest).mpr absent]
        simp [first]
      · rw [Entries.value?_cons_of_ne same]
        simp [same]

end

example :
    (dict [("a", dict [("x", list [] {}), ("y", list [] {})] {}), ("b", list [] {})] {}).ways =
    [[], ["a"], ["a", "x"], ["a", "y"], ["b"]] := by rfl

end Node

theorem pathSegments_ne_nil (key : String) : pathSegments key ≠ [] := by
  unfold pathSegments
  rw [ne_eq, List.map_eq_nil_iff]
  exact List.splitOn_ne_nil '.' key.toList

namespace Context

theorem distinct_root (context : Context) : context.root.Distinct ↔ context.Distinct := Iff.rfl

variable {context after : Context} {key : String} {node : Node}

/-- Selecting a dotted path follows its segments from the root. -/
theorem select_eq_ok_iff_follow? :
    (context.select key).1 = .ok node ↔ context.root.follow? (pathSegments key) = some node := by
  rw [select_eq_ok_iff]
  constructor
  · rintro ⟨read, found, rfl⟩
    obtain ⟨rest, first, split, there, followed⟩ := Scope.find?_eq_some_iff.mp found
    rw [split]
    exact Option.bind_eq_some_iff.mpr ⟨first, there, followed⟩
  · intro followed
    obtain ⟨name, rest, split⟩ := List.exists_cons_of_ne_nil (pathSegments_ne_nil key)
    rw [split] at followed
    obtain ⟨first, there, later⟩ := Option.bind_eq_some_iff.mp followed
    exact ⟨⟨name, node⟩, Scope.find?_eq_some_iff.mpr ⟨rest, first, split, there, later⟩, rfl⟩

/-- Where scalars and lists stay, so does what is selected of them. -/
theorem select_of_held? (kept : ∀ way leaf, leaf.isDict = false →
      context.root.held? way = some leaf → after.root.held? way = some leaf)
    (leaf : node.isDict = false) (selected : (context.select key).1 = .ok node) :
    (after.select key).1 = .ok node := by
  rw [select_eq_ok_iff_follow?] at selected ⊢
  obtain ⟨front, back, first, split, stands, plain, reached⟩ :=
    Node.exists_held?_of_follow? selected leaf
  have there := Node.follow?_of_held? (kept front first plain stands)
  rw [split, Node.follow?_append, there, Option.bind_some, reached]

end Context

end StageTemplates
