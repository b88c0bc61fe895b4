import StageTemplates.Proofs.MergedWays

set_option autoImplicit false

/-!
A merge without overwriting is the disjoint union of both sides, taken through dictionaries at every
depth.
-/
namespace StageTemplates

namespace Node

def DictAt (way : List String) (node : Node) : Prop :=
  ∃ entries origin, node.held? way = some (.dict entries origin)

/-- One node has what two others have: their scalars and lists at their ways, a dictionary where
one of them has one, and in each dictionary the names of the first before new ones of the other. -/
structure DisjointUnion (first other both : Node) : Prop where
  leaves : ∀ way leaf, leaf.isDict = false →
    (both.held? way = some leaf ↔ first.held? way = some leaf ∨ other.held? way = some leaf)
  dicts : ∀ way, both.DictAt way ↔ first.DictAt way ∨ other.DictAt way
  names : ∀ way, both.namesAt way =
    first.namesAt way ++ (other.namesAt way).filter (· ∉ first.namesAt way)

variable {key : String} {present added : Node} {way : List String}

/-- A merge succeeds if both sides are at odds nowhere. -/
theorem merge_eq_none_iff (distinct : added.Distinct) :
    (merge false key present added).2 = none ↔ ∀ way, ¬ present.Clashes added way := by
  have outline := mergedOutline?_merge key present added distinct
  rw [← fits_iff_forall_not_clashes]
  constructor
  · intro success
    by_contra odds
    rw [Outline.add_of_not_fits odds] at outline
    obtain ⟨error, conflict⟩ := conflict_of_mergedOutline? outline
    rw [success] at conflict
    cases conflict
  · intro fits
    rw [Outline.add_of_fits fits] at outline
    exact (eq_of_mergedOutline? outline).1

section

variable (clear : ∀ way, ¬ present.Clashes added way)

include clear

theorem isDict_of_clear {old new : Node} (here : present.held? way = some old)
    (there : added.held? way = some new) : old.isDict = true ∧ new.isDict = true := by
  by_contra apart
  exact clear way ⟨old, new, here, there, apart⟩

/-- Past a scalar or a list of one side, the other side has nothing. -/
theorem held?_of_bars_of_clear (barred : added.bars way = true) : present.held? way = none := by
  obtain ⟨above, below, leaf, rfl, more, stands, kind⟩ := bars_iff.mp barred
  obtain ⟨name, below, rfl⟩ := List.exists_cons_of_ne_nil more
  rw [held?_append]
  cases here : present.held? above with
  | none => rfl
  | some old =>
      have dicts := isDict_of_clear clear here stands
      rw [kind] at dicts
      cases dicts.2

theorem held?_merge_of_clear (distinct : added.Distinct)
    (merged : (merge false key present added).2 = none) (way : List String) :
    (merge false key present added).1.held? way =
      mergeAt false (way.getLastD key) (present.held? way) (added.held? way) := by
  rw [held?_merge distinct merged]
  split
  · next barred =>
      rw [held?_of_bars barred, held?_of_bars_of_clear clear barred]
      rfl
  · rfl

theorem names_of_clear (distinct : added.Distinct)
    (merged : (merge false key present added).2 = none) (way : List String) :
    (merge false key present added).1.namesAt way =
      present.namesAt way ++ (added.namesAt way).filter (· ∉ present.namesAt way) := by
  cases barred : added.bars way with
  | false =>
      refine namesAt_merge distinct merged barred ?_
      exact fun old new here there _ => (isDict_of_clear clear here there).2
  | true =>
      have stands := held?_merge_of_clear clear distinct merged way
      unfold namesAt
      rw [stands, held?_of_bars barred, held?_of_bars_of_clear clear barred]
      simp

theorem disjointUnion_of_clear (distinct : added.Distinct) :
    DisjointUnion present added (merge false key present added).1 := by
  have merged : (merge false key present added).2 = none := (merge_eq_none_iff distinct).mpr clear
  have stands := held?_merge_of_clear clear distinct merged
  constructor
  · intro way leaf kind
    rw [stands way]
    cases here : present.held? way with
    | none => simp
    | some old =>
        cases there : added.held? way with
        | none => simp
        | some new =>
            -- Both sides have dictionaries here, and so has the merge.
            obtain ⟨one, two⟩ := isDict_of_clear clear here there
            have both : (merge false (way.getLastD key) old new).1.isDict = true :=
              isDict_merge one two
            have different : ∀ node : Node, node.isDict = true → node ≠ leaf := by
              intro node isDict same
              rw [same, kind] at isDict
              cases isDict
            simp only [mergeAt_some, Option.some.injEq, different _ one, different _ two,
              different _ both, or_self]
  · intro way
    unfold DictAt
    rw [stands way]
    cases here : present.held? way with
    | none => simp
    | some old =>
        cases there : added.held? way with
        | none => simp
        | some new =>
            obtain ⟨one, two⟩ := isDict_of_clear clear here there
            obtain ⟨entries, kept, rfl⟩ := exists_of_isDict one
            obtain ⟨update, origin, rfl⟩ := exists_of_isDict two
            simp [merge]
  · exact names_of_clear clear distinct merged

end

end Node

namespace Context

variable {context update : Context}

/-- Merging without overwriting is the deep disjoint union. -/
theorem merge_disjoint_union (distinct : update.Distinct)
    (untouched : ∀ key ∈ context.reserved, key ∉ update.keys) :
    ((context.merge update false).1 = .ok () ↔
        ¬ ∃ way, context.root.Clashes update.root way) ∧
      ((context.merge update false).1 = .ok () →
        Node.DisjointUnion context.root update.root (context.merge update false).2.root ∧
          ∀ key node, (context.select key).1 = .ok node → node.isDict = false →
            ((context.merge update false).2.select key).1 = .ok node) := by
  have whole : update.root.Distinct := (distinct_root update).mpr distinct
  have success : (context.merge update false).1 = .ok () ↔
      ∀ way, ¬ context.root.Clashes update.root way := by
    rw [merge_eq_ok_iff untouched false "", Node.merge_eq_none_iff whole]
  refine ⟨success.trans not_exists.symm, fun done => ?_⟩
  have union : Node.DisjointUnion context.root update.root
      (context.merge update false).2.root := by
    rw [root_merge_of_untouched untouched false ""]
    exact Node.disjointUnion_of_clear (success.mp done) whole
  refine ⟨union, fun key node selected leaf => ?_⟩
  apply select_of_held? _ leaf selected
  intro way part plain stands
  exact (union.leaves way part plain).mpr (Or.inl stands)

/-- Variables with a dictionary in a dictionary. -/
def training : Context :=
  ofEntries (.ofSource "params.yaml" false)
    [("train", .dict [("epochs", .int 10), ("dirs", .dict [])]), ("seeds", .list [.int 1, .int 2])]

/-- Variables that go together with those. -/
def outputs : Context :=
  ofEntries (.ofSource "outputs.yaml" false)
    [("lang", .string "en"), ("train", .dict [("dirs", .dict [("models", .string "out")])])]

theorem training_merge_outputs :
    outputs.Distinct ∧ (∀ key ∈ training.reserved, key ∉ outputs.keys) ∧
      (training.merge outputs false).1 = .ok () ∧
      Node.DisjointUnion training.root outputs.root (training.merge outputs false).2.root := by
  have distinct : outputs.Distinct := by decide
  have untouched : ∀ key ∈ training.reserved, key ∉ outputs.keys := by decide
  have done : (training.merge outputs false).1 = .ok () := by rfl
  exact ⟨distinct, untouched, done, ((merge_disjoint_union distinct untouched).2 done).1⟩

end Context

end StageTemplates
