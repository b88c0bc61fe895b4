import StageTemplates.Proofs.Ways

set_option autoImplicit false

/-!
What stands at each way after a merge, of what stood there on both sides. Without overwriting that
is the disjoint union of both sides; with overwriting the update prevails, and merging it again
changes nothing.
-/
namespace StageTemplates

namespace Node

/-- What is under a name after a merge, of what both sides have there. -/
def mergeAt (overwrite : Bool) (key : String) (present? added? : Option Node) : Option Node :=
  match present?, added? with
  | present?, none => present?
  | none, some added => some added
  | some present, some added => some (merge overwrite key present added).1

@[simp] theorem mergeAt_none_right (overwrite : Bool) (key : String) (present? : Option Node) :
    mergeAt overwrite key present? none = present? := by
  cases present? <;> rfl

@[simp] theorem mergeAt_none_left (overwrite : Bool) (key : String) (added? : Option Node) :
    mergeAt overwrite key none added? = added? := by
  cases added? <;> rfl

@[simp] theorem mergeAt_some (overwrite : Bool) (key : String) (present added : Node) :
    mergeAt overwrite key (some present) (some added) =
      some (merge overwrite key present added).1 := rfl

section Level

variable {overwrite : Bool} {into : Entries Node} {key : String} {node : Node}
  {added rest : List (String × Node)}

/-- One step of a merge that succeeds: what comes of both sides is written under the name. -/
theorem mergeEntries_cons_of_success
    (merged : (mergeEntries overwrite into ((key, node) :: rest)).2 = none) :
    (∀ present, Entries.value? key into = some present →
        (merge overwrite key present node).2 = none) ∧
      ∃ placed, mergeAt overwrite key (Entries.value? key into) (some node) = some placed ∧
        mergeEntries overwrite into ((key, node) :: rest) =
          mergeEntries overwrite (Entries.put key placed into) rest := by
  cases found : Entries.value? key into with
  | none =>
      have absent := (Entries.value?_eq_none_iff key into).mp found
      refine ⟨?_, node, rfl, ?_⟩
      · intro present there
        cases there
      · rw [mergeEntries_cons_of_none found, Entries.put_of_not_mem absent]
  | some present =>
      cases ended : (merge overwrite key present node).2 with
      | none =>
          refine ⟨?_, _, rfl, mergeEntries_cons_of_merged found ended rest⟩
          intro other same
          rw [← Option.some.inj same]
          exact ended
      | some error =>
          rw [mergeEntries_cons_of_conflict found ended] at merged
          cases merged

theorem value?_mergeEntries (distinct : (Entries.keys added).Nodup)
    (merged : (mergeEntries overwrite into added).2 = none) (name : String) :
    Entries.value? name (mergeEntries overwrite into added).1 =
      mergeAt overwrite name (Entries.value? name into) (Entries.value? name added) := by
  induction added generalizing into with
  | nil => rw [Entries.value?_nil, mergeAt_none_right, mergeEntries]
  | cons entry rest ih =>
      obtain ⟨key, node⟩ := entry
      rw [Entries.keys_cons, List.nodup_cons] at distinct
      obtain ⟨-, placed, written, step⟩ := mergeEntries_cons_of_success merged
      rw [step] at merged ⊢
      rw [ih distinct.2 merged]
      by_cases same : key = name
      · subst same
        have later := (Entries.value?_eq_none_iff key rest).mpr distinct.1
        rw [Entries.value?_put_self, later, mergeAt_none_right, Entries.value?_cons_self, written]
      · rw [Entries.value?_put_of_ne (Ne.symm same), Entries.value?_cons_of_ne same]

/-- In a merge that succeeds, what both sides have under a name merges. -/
theorem merged_value? (distinct : (Entries.keys added).Nodup)
    (merged : (mergeEntries overwrite into added).2 = none) {name : String} {present new : Node}
    (here : Entries.value? name into = some present)
    (there : Entries.value? name added = some new) :
    (merge overwrite name present new).2 = none := by
  induction added generalizing into with
  | nil => cases there
  | cons entry rest ih =>
      obtain ⟨key, node⟩ := entry
      rw [Entries.keys_cons, List.nodup_cons] at distinct
      obtain ⟨first, placed, -, step⟩ := mergeEntries_cons_of_success merged
      by_cases same : key = name
      · subst same
        rw [Entries.value?_cons_self] at there
        cases there
        exact first present here
      · rw [step] at merged
        rw [Entries.value?_cons_of_ne same] at there
        refine ih distinct.2 merged ?_ there
        rw [Entries.value?_put_of_ne (Ne.symm same), here]

/-- Old names keep their order, and new ones follow in that of the update. -/
theorem keys_mergeEntries (distinct : (Entries.keys added).Nodup)
    (merged : (mergeEntries overwrite into added).2 = none) :
    Entries.keys (mergeEntries overwrite into added).1 =
      Entries.keys into ++ (Entries.keys added).filter (· ∉ Entries.keys into) := by
  induction added generalizing into with
  | nil => simp [mergeEntries]
  | cons entry rest ih =>
      obtain ⟨key, node⟩ := entry
      rw [Entries.keys_cons, List.nodup_cons] at distinct
      obtain ⟨-, placed, -, step⟩ := mergeEntries_cons_of_success merged
      rw [step] at merged ⊢
      rw [ih distinct.2 merged]
      by_cases member : key ∈ Entries.keys into
      · rw [Entries.keys_put_of_mem member, Entries.keys_cons,
          List.filter_cons_of_neg (by simpa using member)]
      · have others : (Entries.keys rest).filter (· ∉ Entries.keys into ++ [key]) =
            (Entries.keys rest).filter (· ∉ Entries.keys into) := by
          apply List.filter_congr
          intro name later
          have different : name ≠ key := fun same => distinct.1 (same ▸ later)
          simp [different]
        rw [Entries.put_of_not_mem member, Entries.keys_append, Entries.keys_cons,
          Entries.keys_nil, Entries.keys_cons, List.filter_cons_of_pos (by simpa using member),
          others, List.append_assoc, List.singleton_append]

end Level

section Depth

variable {overwrite : Bool} {key : String} {present added : Node}

theorem merge_eq_replaced (apart : ¬ (present.isDict = true ∧ added.isDict = true)) :
    merge overwrite key present added = replaced overwrite key present added := by
  cases added with
  | scalar value origin => rfl
  | list items origin => rfl
  | dict update origin =>
      cases present with
      | scalar value kept => rfl
      | list items kept => rfl
      | dict entries kept => exact absurd ⟨rfl, rfl⟩ apart

/-- Where not both sides are dictionaries, a merge that succeeds leaves the node that came. -/
theorem merge_of_not_dicts (apart : ¬ (present.isDict = true ∧ added.isDict = true))
    (merged : (merge overwrite key present added).2 = none) :
    (merge overwrite key present added).1 = added := by
  rw [merge_eq_replaced apart] at merged ⊢
  cases overwrite with
  | true => rfl
  | false => cases merged

/-- Dictionaries that merge leave a dictionary. -/
theorem isDict_merge (present_isDict : present.isDict = true) (added_isDict : added.isDict = true) :
    (merge overwrite key present added).1.isDict = true := by
  obtain ⟨entries, kept, rfl⟩ := exists_of_isDict present_isDict
  obtain ⟨update, origin, rfl⟩ := exists_of_isDict added_isDict
  rfl

/-- Old names keep their order and new ones follow, unless a dictionary has to go. -/
theorem names_merge (distinct : added.Distinct)
    (merged : (merge overwrite key present added).2 = none)
    (stays : present.isDict = true → added.isDict = true) :
    (merge overwrite key present added).1.names =
      present.names ++ added.names.filter (· ∉ present.names) := by
  cases kind : present.isDict with
  | true =>
      obtain ⟨entries, kept, rfl⟩ := exists_of_isDict kind
      obtain ⟨update, origin, rfl⟩ := exists_of_isDict (stays kind)
      exact keys_mergeEntries ((distinct_dict update origin).mp distinct).1 merged
  | false =>
      have apart : ¬ (present.isDict = true ∧ added.isDict = true) := by simp [kind]
      rw [merge_of_not_dicts apart merged, names_of_not_dict kind]
      simp

/-- What a way leads to after a merge: what comes of both sides there, unless the update has a
scalar or a list above. -/
theorem held?_merge (distinct : added.Distinct)
    (merged : (merge overwrite key present added).2 = none) (way : List String) :
    (merge overwrite key present added).1.held? way =
      if added.bars way then none
      else mergeAt overwrite (way.getLastD key) (present.held? way) (added.held? way) := by
  induction way generalizing key present added with
  | nil => simp [bars, held?_nil]
  | cons name way ih =>
      rw [List.getLastD_cons]
      by_cases both : present.isDict = true ∧ added.isDict = true
      · obtain ⟨entries, kept, rfl⟩ := exists_of_isDict both.1
        obtain ⟨update, origin, rfl⟩ := exists_of_isDict both.2
        obtain ⟨names, whole⟩ := (distinct_dict update origin).mp distinct
        have level := value?_mergeEntries names merged name
        rw [merge]
        dsimp only
        rw [held?_dict_cons, held?_dict_cons, held?_dict_cons, level]
        cases there : Entries.value? name update with
        | none => simp [bars, there]
        | some new =>
            have part : new.Distinct := whole _ (Entries.mem_of_value? there)
            cases here : Entries.value? name entries with
            | none =>
                cases barred : new.bars way with
                | true => simp [bars, there, barred, held?_of_bars barred]
                | false => simp [bars, there, barred]
            | some old =>
                have success := merged_value? names merged here there
                simpa [bars, there] using ih part success
      · rw [merge_of_not_dicts both merged]
        cases kind : added.isDict with
        | true =>
            have leaf : present.isDict = false := by
              rw [← Bool.not_eq_true]
              exact fun isDict => both ⟨isDict, kind⟩
            rw [held?_cons_of_not_dict leaf, mergeAt_none_left]
            split
            · next barred => exact held?_of_bars barred
            · rfl
        | false => rw [bars_cons_of_not_dict kind, if_pos rfl, held?_cons_of_not_dict kind]

/-- In a merge that succeeds, what both sides have at a way merges. -/
theorem merged_held? (distinct : added.Distinct)
    (merged : (merge overwrite key present added).2 = none) {way : List String} {old new : Node}
    (here : present.held? way = some old) (there : added.held? way = some new) :
    (merge overwrite (way.getLastD key) old new).2 = none := by
  induction way generalizing key present added with
  | nil =>
      rw [held?_nil] at here there
      cases here
      cases there
      exact merged
  | cons name way ih =>
      obtain ⟨entries, kept, rfl⟩ := exists_of_isDict (isDict_of_held?_cons here)
      obtain ⟨update, origin, rfl⟩ := exists_of_isDict (isDict_of_held?_cons there)
      obtain ⟨first, one, here⟩ := Option.bind_eq_some_iff.mp here
      obtain ⟨second, two, there⟩ := Option.bind_eq_some_iff.mp there
      obtain ⟨names, whole⟩ := (distinct_dict update origin).mp distinct
      rw [List.getLastD_cons]
      exact ih (whole _ (Entries.mem_of_value? two)) (merged_value? names merged one two) here
        there

/-- The names at a way after a merge, where the update has no scalar or list above and none in the
place of a dictionary. -/
theorem namesAt_merge (distinct : added.Distinct)
    (merged : (merge overwrite key present added).2 = none) {way : List String}
    (free : added.bars way = false)
    (stays : ∀ old new, present.held? way = some old → added.held? way = some new →
      old.isDict = true → new.isDict = true) :
    (merge overwrite key present added).1.namesAt way =
      present.namesAt way ++ (added.namesAt way).filter (· ∉ present.namesAt way) := by
  have stands := held?_merge distinct merged way
  rw [if_neg (by simp [free])] at stands
  unfold namesAt
  rw [stands]
  cases there : added.held? way with
  | none => simp
  | some new =>
      cases here : present.held? way with
      | none => simp
      | some old =>
          have part := distinct.held? there
          have success := merged_held? distinct merged here there
          simpa using names_merge part success (stays old new here there)

end Depth

end Node

namespace Context

variable {context update : Context}

theorem touched_eq_nil_iff :
    context.touched update = [] ↔ ∀ key ∈ context.reserved, key ∉ update.keys := by
  unfold touched contains
  rw [List.filter_eq_nil_iff]
  simp only [Entries.has_eq_true_iff]
  rfl

/-- A merge that touches no reserved name is one of the dictionaries of all variables. -/
theorem merge_of_untouched (untouched : ∀ key ∈ context.reserved, key ∉ update.keys)
    (overwrite : Bool) :
    context.merge update overwrite =
      (match (Node.mergeEntries overwrite context.data update.data).2 with
        | none => .ok ()
        | some error => .error error,
        { context with data := (Node.mergeEntries overwrite context.data update.data).1 }) := by
  rw [merge, touched_eq_nil_iff.mpr untouched]
  dsimp only
  cases ended : (Node.mergeEntries overwrite context.data update.data).2 <;> rfl

theorem root_merge_of_untouched (untouched : ∀ key ∈ context.reserved, key ∉ update.keys)
    (overwrite : Bool) (key : String) :
    (context.merge update overwrite).2.root =
      (Node.merge overwrite key context.root update.root).1 := by
  rw [merge_of_untouched untouched]
  rfl

theorem merge_eq_ok_iff (untouched : ∀ key ∈ context.reserved, key ∉ update.keys)
    (overwrite : Bool) (key : String) :
    (context.merge update overwrite).1 = .ok () ↔
      (Node.merge overwrite key context.root update.root).2 = none := by
  rw [merge_of_untouched untouched, root, root, Node.merge]
  dsimp only
  split
  · next none => simp [none]
  · next error found => simp [found]

end Context

end StageTemplates
