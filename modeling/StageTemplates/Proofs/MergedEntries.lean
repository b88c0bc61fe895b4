import StageTemplates.Context.Merge
import StageTemplates.Proofs.Entries

set_option autoImplicit false

/-!
What a merge does to entries, name by name: names that the update does not have stay as they are,
and those that it has fare as they would among any other entries.
-/
namespace StageTemplates

namespace Node

theorem mergeEntries_cons_of_none {overwrite : Bool} {into : Entries Node} {key : String}
    (absent : Entries.value? key into = none) (added : Node) (rest : List (String × Node)) :
    mergeEntries overwrite into ((key, added) :: rest) =
      mergeEntries overwrite (into ++ [(key, added)]) rest := by
  rw [mergeEntries, absent]

theorem mergeEntries_cons_of_merged {overwrite : Bool} {into : Entries Node} {key : String}
    {present added : Node} (found : Entries.value? key into = some present)
    (merged : (merge overwrite key present added).2 = none) (rest : List (String × Node)) :
    mergeEntries overwrite into ((key, added) :: rest) =
      mergeEntries overwrite (Entries.put key (merge overwrite key present added).1 into) rest := by
  simp only [mergeEntries, found, merged]

theorem mergeEntries_cons_of_conflict {overwrite : Bool} {into : Entries Node} {key : String}
    {present added : Node} {error : ContextError} (found : Entries.value? key into = some present)
    (conflict : (merge overwrite key present added).2 = some error)
    (rest : List (String × Node)) :
    mergeEntries overwrite into ((key, added) :: rest) =
      (Entries.put key (merge overwrite key present added).1 into, some error) := by
  simp only [mergeEntries, found, conflict]

/-- A merge of entries is one of the first of them and then one of the others. -/
theorem mergeEntries_append_eq_iff {overwrite : Bool} {into merged : Entries Node}
    {first second : List (String × Node)} :
    mergeEntries overwrite into (first ++ second) = (merged, none) ↔
      ∃ middle, mergeEntries overwrite into first = (middle, none) ∧
        mergeEntries overwrite middle second = (merged, none) := by
  induction first generalizing into with
  | nil => simp [mergeEntries]
  | cons entry rest ih =>
      obtain ⟨key, added⟩ := entry
      rw [List.cons_append]
      cases found : Entries.value? key into with
      | none => rw [mergeEntries_cons_of_none found, mergeEntries_cons_of_none found, ih]
      | some present =>
          cases ended : (merge overwrite key present added).2 with
          | none =>
              rw [mergeEntries_cons_of_merged found ended, mergeEntries_cons_of_merged found ended,
                ih]
          | some error =>
              rw [mergeEntries_cons_of_conflict found ended,
                mergeEntries_cons_of_conflict found ended]
              simp

variable (overwrite : Bool)

/-- A merge only writes under names of the update, so what such writing keeps the merge keeps,
however far it comes. -/
theorem mergeEntries_keeps (holds : Entries Node → Prop) {added : List (String × Node)}
    (written : ∀ name ∈ Entries.keys added, ∀ node into, holds into →
      holds (Entries.put name node into)) {into : Entries Node} (start : holds into) :
    holds (mergeEntries overwrite into added).1 := by
  induction added generalizing into with
  | nil => exact start
  | cons entry rest ih =>
      obtain ⟨key, node⟩ := entry
      rw [Entries.keys_cons, List.forall_mem_cons] at written
      cases found : Entries.value? key into with
      | none =>
          have absent := (Entries.value?_eq_none_iff key into).mp found
          rw [mergeEntries_cons_of_none found, ← Entries.put_of_not_mem absent]
          exact ih written.2 (written.1 node into start)
      | some present =>
          have here := written.1 (merge overwrite key present node).1 into start
          cases ended : (merge overwrite key present node).2 with
          | none =>
              rw [mergeEntries_cons_of_merged found ended]
              exact ih written.2 here
          | some error =>
              rw [mergeEntries_cons_of_conflict found ended]
              exact here

/-- Names that an update does not have keep what they stand for. -/
theorem value?_mergeEntries_of_not_mem {name : String} {added : List (String × Node)}
    (apart : name ∉ Entries.keys added) (into : Entries Node) :
    Entries.value? name (mergeEntries overwrite into added).1 = Entries.value? name into := by
  refine mergeEntries_keeps overwrite
    (fun entries => Entries.value? name entries = Entries.value? name into) ?_ rfl
  intro other member node entries same
  have different : name ≠ other := fun equal => apart (equal ▸ member)
  rw [Entries.value?_put_of_ne different, same]

/-- An update fares alike with entries that agree on its names, and they agree on them after it, on
whatever other names they agreed on too. -/
theorem mergeEntries_agree {common : String → Prop} {added : List (String × Node)}
    (within : ∀ name ∈ Entries.keys added, common name) {first second : Entries Node}
    (agree : ∀ name, common name → Entries.value? name first = Entries.value? name second) :
    (mergeEntries overwrite first added).2 = (mergeEntries overwrite second added).2 ∧
      ∀ name, common name → Entries.value? name (mergeEntries overwrite first added).1 =
        Entries.value? name (mergeEntries overwrite second added).1 := by
  induction added generalizing first second with
  | nil => exact ⟨rfl, agree⟩
  | cons entry rest ih =>
      obtain ⟨key, node⟩ := entry
      rw [Entries.keys_cons, List.forall_mem_cons] at within
      have written : ∀ node name, common name →
          Entries.value? name (Entries.put key node first) =
            Entries.value? name (Entries.put key node second) := by
        intro node name among
        rw [Entries.value?_put, Entries.value?_put, agree name among]
      cases found : Entries.value? key first with
      | none =>
          have there : Entries.value? key second = none := (agree key within.1).symm.trans found
          have absent := (Entries.value?_eq_none_iff key first).mp found
          have absent' := (Entries.value?_eq_none_iff key second).mp there
          rw [mergeEntries_cons_of_none found, mergeEntries_cons_of_none there,
            ← Entries.put_of_not_mem absent, ← Entries.put_of_not_mem absent']
          exact ih within.2 (written node)
      | some present =>
          have there : Entries.value? key second = some present :=
            (agree key within.1).symm.trans found
          cases ended : (merge overwrite key present node).2 with
          | none =>
              rw [mergeEntries_cons_of_merged found ended, mergeEntries_cons_of_merged there ended]
              exact ih within.2 (written _)
          | some error =>
              rw [mergeEntries_cons_of_conflict found ended,
                mergeEntries_cons_of_conflict there ended]
              exact ⟨rfl, written _⟩

theorem nodup_keys_mergeEntries {into : Entries Node} (distinct : (Entries.keys into).Nodup)
    (added : List (String × Node)) :
    (Entries.keys (mergeEntries overwrite into added).1).Nodup := by
  refine mergeEntries_keeps overwrite (fun entries => (Entries.keys entries).Nodup) ?_ distinct
  exact fun name _ node entries old => Entries.nodup_keys_put old name node

/-- A merge takes no name away, however far it comes. -/
theorem subset_keys_mergeEntries (into : Entries Node) (added : List (String × Node)) :
    Entries.keys into ⊆ Entries.keys (mergeEntries overwrite into added).1 := by
  refine mergeEntries_keeps overwrite (fun entries => Entries.keys into ⊆ Entries.keys entries) ?_
    (List.Subset.refl _)
  intro other _ node entries within name member
  rw [Entries.mem_keys_put]
  exact Or.inr (within member)

variable {overwrite}

/-- After a merge that succeeds there are the names of both sides. -/
theorem mem_keys_mergeEntries {into : Entries Node} {added : List (String × Node)}
    (merged : (mergeEntries overwrite into added).2 = none) (name : String) :
    name ∈ Entries.keys (mergeEntries overwrite into added).1 ↔
      name ∈ Entries.keys into ∨ name ∈ Entries.keys added := by
  induction added generalizing into with
  | nil => simp [mergeEntries]
  | cons entry rest ih =>
      obtain ⟨key, node⟩ := entry
      have regroup : ∀ node, (name ∈ Entries.keys (Entries.put key node into) ∨
          name ∈ Entries.keys rest) ↔
          name ∈ Entries.keys into ∨ name ∈ Entries.keys ((key, node) :: rest) := by
        intro node
        rw [Entries.mem_keys_put, Entries.keys_cons, List.mem_cons, or_assoc, or_left_comm]
      cases found : Entries.value? key into with
      | none =>
          have absent := (Entries.value?_eq_none_iff key into).mp found
          rw [mergeEntries_cons_of_none found, ← Entries.put_of_not_mem absent] at merged ⊢
          rw [ih merged, regroup]
      | some present =>
          cases ended : (merge overwrite key present node).2 with
          | none =>
              rw [mergeEntries_cons_of_merged found ended] at merged ⊢
              rw [ih merged, regroup]
              rfl
          | some error =>
              rw [mergeEntries_cons_of_conflict found ended] at merged
              cases merged

end Node

namespace Context

variable (context update : Context) (overwrite : Bool)

theorem keys_subset_merge : context.keys ⊆ (context.merge update overwrite).2.keys := by
  have kept := Node.subset_keys_mergeEntries overwrite context.data update.data
  unfold merge
  split
  · dsimp only
    split
    · exact kept
    · exact kept
  · exact List.Subset.refl _

variable {context update overwrite}

theorem mem_keys_merge {outcome : Unit}
    (merged : (context.merge update overwrite).1 = .ok outcome) (name : String) :
    name ∈ (context.merge update overwrite).2.keys ↔ name ∈ context.keys ∨ name ∈ update.keys := by
  unfold merge at merged ⊢
  split at merged
  · dsimp only at merged ⊢
    split at merged
    · next ended =>
        exact Node.mem_keys_mergeEntries ended name
    · cases merged
  · cases merged

end Context

end StageTemplates
