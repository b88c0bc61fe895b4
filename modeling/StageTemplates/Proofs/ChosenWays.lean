import StageTemplates.Proofs.Ways

set_option autoImplicit false

/-!
The part of a node that has only those entries, at every depth, whose ways are chosen.
-/
namespace StageTemplates

namespace Node

mutual

/-- The node with those entries, at every depth, whose ways are chosen. -/
def only (chosen : List String → Bool) : Node → Node
  | .dict entries origin => .dict (onlyIn chosen entries) origin
  | .list items origin => .list items origin
  | .scalar value origin => .scalar value origin
termination_by structural node => node

def onlyIn (chosen : List String → Bool) : List (String × Node) → List (String × Node)
  | [] => []
  | (key, node) :: rest =>
      if chosen [key] then (key, node.only fun way => chosen (key :: way)) :: onlyIn chosen rest
      else onlyIn chosen rest
termination_by structural entries => entries

end

section Chosen

variable {chosen : List String → Bool}

mutual

/-- Only the ways of a node count when it is chosen from. -/
theorem only_congr (node : Node) {chosen other : List String → Bool}
    (same : ∀ way ∈ node.ways, chosen way = other way) : node.only chosen = node.only other := by
  match node with
  | .scalar value origin => rfl
  | .list items origin => rfl
  | .dict entries origin =>
      have inside : ∀ way ∈ waysIn entries, chosen way = other way := by
        intro way member
        exact same way (List.mem_cons_of_mem _ member)
      rw [only, only, onlyIn_congr entries inside]

theorem onlyIn_congr (entries : List (String × Node)) {chosen other : List String → Bool}
    (same : ∀ way ∈ waysIn entries, chosen way = other way) :
    onlyIn chosen entries = onlyIn other entries := by
  match entries with
  | [] => rfl
  | (key, node) :: rest =>
      have below : ∀ way ∈ node.ways, chosen (key :: way) = other (key :: way) := by
        intro way member
        exact same _ (List.mem_append_left _ (List.mem_map_of_mem member))
      have later : ∀ way ∈ waysIn rest, chosen way = other way := by
        intro way member
        exact same _ (List.mem_append_right _ member)
      rw [onlyIn, onlyIn, below [] (nil_mem_ways node), only_congr node below,
        onlyIn_congr rest later]

end

mutual

theorem only_true (node : Node) : node.only (fun _ => true) = node := by
  match node with
  | .scalar value origin => rfl
  | .list items origin => rfl
  | .dict entries origin => rw [only, onlyIn_true entries]

theorem onlyIn_true (entries : List (String × Node)) :
    onlyIn (fun _ => true) entries = entries := by
  match entries with
  | [] => rfl
  | (key, node) :: rest => rw [onlyIn, if_pos rfl, only_true node, onlyIn_true rest]

end

theorem only_of_all {node : Node} (all : ∀ way ∈ node.ways, chosen way = true) :
    node.only chosen = node :=
  (only_congr node all).trans (only_true node)

theorem onlyIn_of_none {entries : List (String × Node)}
    (none : ∀ key ∈ Entries.keys entries, chosen [key] = false) : onlyIn chosen entries = [] := by
  induction entries with
  | nil => rfl
  | cons entry rest ih =>
      obtain ⟨key, node⟩ := entry
      rw [Entries.keys_cons, List.forall_mem_cons] at none
      rw [onlyIn, none.1]
      exact ih none.2

theorem keys_onlyIn_sublist (entries : List (String × Node)) :
    (Entries.keys (onlyIn chosen entries)).Sublist (Entries.keys entries) := by
  induction entries with
  | nil => exact List.Sublist.refl _
  | cons entry rest ih =>
      obtain ⟨key, node⟩ := entry
      rw [onlyIn]
      split
      · exact ih.cons_cons key
      · exact ih.cons key

theorem value?_onlyIn (key : String) (entries : List (String × Node)) :
    Entries.value? key (onlyIn chosen entries) =
      if chosen [key] then
        (Entries.value? key entries).map (only fun way => chosen (key :: way))
      else none := by
  induction entries with
  | nil => simp [onlyIn]
  | cons entry rest ih =>
      obtain ⟨name, node⟩ := entry
      rw [onlyIn]
      by_cases same : name = key
      · subst same
        cases taken : chosen [name] with
        | true => simp
        | false => simpa [taken] using ih
      · rw [Entries.value?_cons_of_ne same]
        split
        · rw [Entries.value?_cons_of_ne same, ih]
        · exact ih

/-- Below the top there is nothing but what is chosen. -/
theorem chosen_of_held?_only {way : List String} {node part : Node}
    (found : (node.only chosen).held? way = some part) : way = [] ∨ chosen way = true := by
  induction way generalizing node chosen with
  | nil => exact Or.inl rfl
  | cons key way ih =>
      right
      cases node with
      | scalar value origin => cases found
      | list items origin => cases found
      | dict entries origin =>
          rw [only, held?_dict_cons, value?_onlyIn] at found
          split at found
          · next taken =>
              obtain ⟨child, there, later⟩ := Option.bind_eq_some_iff.mp found
              obtain ⟨whole, -, rfl⟩ := Option.map_eq_some_iff.mp there
              rcases ih later with rfl | below
              · exact taken
              · exact below
          · cases found

mutual

theorem distinct_only (node : Node) {chosen : List String → Bool} (distinct : node.Distinct) :
    (node.only chosen).Distinct := by
  match node with
  | .scalar value origin => exact distinct
  | .list items origin => exact distinct
  | .dict entries origin =>
      rw [distinct_dict] at distinct
      rw [only, distinct_dict]
      exact ⟨distinct.1.sublist (keys_onlyIn_sublist entries),
        distinct_onlyIn entries distinct.2⟩

theorem distinct_onlyIn (entries : List (String × Node)) {chosen : List String → Bool}
    (distinct : ∀ entry ∈ entries, entry.2.Distinct) :
    ∀ entry ∈ onlyIn chosen entries, entry.2.Distinct := by
  match entries with
  | [] => simp [onlyIn]
  | (key, node) :: rest =>
      rw [List.forall_mem_cons] at distinct
      have later : ∀ chosen, ∀ entry ∈ onlyIn chosen rest, entry.2.Distinct :=
        fun chosen => distinct_onlyIn rest distinct.2
      rw [onlyIn]
      split
      · rw [List.forall_mem_cons]
        exact ⟨distinct_only node distinct.1, later chosen⟩
      · exact later chosen

end

end Chosen

end Node

end StageTemplates
