import StageTemplates.Proofs.MergedWays

set_option autoImplicit false

/-!
A merge with overwriting always succeeds, the update prevails in it, and merging the same update
again changes nothing.
-/
namespace StageTemplates

namespace Node

/-- No scalar or list stands at the way or above it. -/
def ClearTo (way : List String) (node : Node) : Prop :=
  ∀ above part, above <+: way → node.held? above = some part → part.isDict = true

variable {key : String} {present added : Node} {way : List String}

mutual

/-- With overwriting nothing is a conflict. -/
theorem merge_true_eq_none (key : String) (present added : Node) :
    (merge true key present added).2 = none := by
  match added with
  | .scalar value origin => rfl
  | .list items origin => rfl
  | .dict added origin =>
      cases present with
      | scalar value kept => rfl
      | list items kept => rfl
      | dict entries kept => exact mergeEntries_true_eq_none entries added

theorem mergeEntries_true_eq_none (into : Entries Node) (added : List (String × Node)) :
    (mergeEntries true into added).2 = none := by
  match added with
  | [] => rfl
  | (key, node) :: rest =>
      cases found : Entries.value? key into with
      | none =>
          rw [mergeEntries_cons_of_none found]
          exact mergeEntries_true_eq_none _ rest
      | some present =>
          rw [mergeEntries_cons_of_merged found (merge_true_eq_none key present node)]
          exact mergeEntries_true_eq_none _ rest

end

/-- A node that another leaves as it is. -/
def Absorbs (key : String) (present added : Node) : Prop :=
  merge true key present added = (present, none)

/-- Entries of which each leaves what it meets as it is change nothing. -/
theorem mergeEntries_of_absorbed {into : Entries Node} {added : List (String × Node)}
    (absorbed : ∀ entry ∈ added, ∃ present, Entries.value? entry.1 into = some present ∧
      Absorbs entry.1 present entry.2) :
    mergeEntries true into added = (into, none) := by
  induction added with
  | nil => rfl
  | cons entry rest ih =>
      obtain ⟨key, node⟩ := entry
      rw [List.forall_mem_cons] at absorbed
      obtain ⟨⟨present, found, same⟩, later⟩ := absorbed
      have merged : (merge true key present node).2 = none := by rw [same]
      rw [mergeEntries_cons_of_merged found merged, same, Entries.put_of_value? found]
      exact ih later

/-- What comes of a merge, of whatever was there, leaves a second one as it is. -/
def Settles (added : Node) : Prop :=
  ∀ key, Absorbs key added added ∧
    ∀ present, Absorbs key (merge true key present added).1 added

theorem Settles.mergeAt {added : Node} (settles : added.Settles) (key : String)
    {present? : Option Node} {after : Node}
    (merged : mergeAt true key present? (some added) = some after) : Absorbs key after added := by
  cases present? with
  | none =>
      rw [mergeAt_none_left] at merged
      exact Option.some.inj merged ▸ (settles key).1
  | some present =>
      rw [mergeAt_some] at merged
      exact Option.some.inj merged ▸ (settles key).2 present

/-- A dictionary settles if its entries do: the second merge meets what the first one left, be it
merged, put in or put in the place of something else. -/
theorem settles_dict {entries : List (String × Node)} (distinct : (Entries.keys entries).Nodup)
    (each : ∀ entry ∈ entries, entry.2.Settles) (origin : Origin) :
    (dict entries origin).Settles := by
  have self : mergeEntries true entries entries = (entries, none) := by
    apply mergeEntries_of_absorbed
    intro entry member
    have found : Entries.value? entry.1 entries = some entry.2 :=
      Entries.value?_of_mem distinct member
    exact ⟨entry.2, found, (each entry member entry.1).1⟩
  have again : ∀ into, mergeEntries true (mergeEntries true into entries).1 entries =
      ((mergeEntries true into entries).1, none) := by
    intro into
    apply mergeEntries_of_absorbed
    intro entry member
    have level := value?_mergeEntries distinct (mergeEntries_true_eq_none into entries) entry.1
    have found : Entries.value? entry.1 entries = some entry.2 :=
      Entries.value?_of_mem distinct member
    rw [found] at level
    cases there : Entries.value? entry.1 (mergeEntries true into entries).1 with
    | none =>
        rw [there] at level
        cases here : Entries.value? entry.1 into <;> simp [here] at level
    | some present =>
        rw [there] at level
        exact ⟨present, rfl, (each entry member).mergeAt entry.1 level.symm⟩
  intro key
  have own : Absorbs key (dict entries origin) (dict entries origin) := by
    rw [Absorbs, merge, self]
  refine ⟨own, ?_⟩
  intro present
  cases present with
  | scalar value kept => exact own
  | list items kept => exact own
  | dict into kept =>
      rw [Absorbs, merge, merge, again]

mutual

theorem settles (added : Node) (distinct : added.Distinct) : added.Settles := by
  match added with
  | .scalar value origin => exact fun key => ⟨rfl, fun present => rfl⟩
  | .list items origin => exact fun key => ⟨rfl, fun present => rfl⟩
  | .dict entries origin =>
      obtain ⟨names, parts⟩ := (distinct_dict entries origin).mp distinct
      exact settles_dict names (settles_entries entries parts) origin

theorem settles_entries (entries : List (String × Node))
    (distinct : ∀ entry ∈ entries, entry.2.Distinct) :
    ∀ entry ∈ entries, entry.2.Settles := by
  match entries with
  | [] => simp
  | (key, node) :: rest =>
      rw [List.forall_mem_cons] at distinct ⊢
      exact ⟨settles node distinct.1, settles_entries rest distinct.2⟩

end

theorem ClearTo.bars (clear : added.ClearTo way) : added.bars way = false := by
  rw [← Bool.not_eq_true, bars_iff]
  rintro ⟨above, below, leaf, rfl, -, stands, kind⟩
  rw [clear above leaf (List.prefix_append above below) stands] at kind
  cases kind

theorem not_bars_of_held? {new : Node} (there : added.held? way = some new) :
    added.bars way = false := by
  rw [← Bool.not_eq_true]
  intro barred
  rw [held?_of_bars barred] at there
  cases there

/-- What an update makes of a node that it is merged over: its scalars and lists are there, its
dictionaries take in those they meet and take the place of anything else, and what it does not
reach stays. Old names keep their order, and new ones follow. -/
structure Overwritten (before added after : Node) : Prop where
  leaves : ∀ way leaf, added.held? way = some leaf → leaf.isDict = false →
    after.held? way = some leaf
  both : ∀ way old new, before.held? way = some old → added.held? way = some new →
    old.isDict = true → new.isDict = true → ∃ both, after.held? way = some both ∧
      both.isDict = true ∧ ∀ name, name ∈ both.names ↔ name ∈ old.names ∨ name ∈ new.names
  dicts : ∀ way old new, before.held? way = some old → added.held? way = some new →
    old.isDict = false → new.isDict = true → after.held? way = some new
  kept : ∀ way old, before.held? way = some old → added.held? way = none → added.ClearTo way →
    after.held? way = some old
  names : ∀ way, added.ClearTo way → after.namesAt way =
    before.namesAt way ++ (added.namesAt way).filter (· ∉ before.namesAt way)

section

variable (distinct : added.Distinct)

include distinct

theorem held?_overwritten (key : String) (present : Node) (way : List String) :
    (merge true key present added).1.held? way =
      if added.bars way then none
      else mergeAt true (way.getLastD key) (present.held? way) (added.held? way) :=
  held?_merge distinct (merge_true_eq_none key present added) way

/-- Where not both sides have dictionaries, what the update has prevails. -/
theorem held?_of_added {new : Node} (there : added.held? way = some new)
    (apart : ∀ old, present.held? way = some old → ¬ (old.isDict = true ∧ new.isDict = true)) :
    (merge true key present added).1.held? way = some new := by
  rw [held?_overwritten distinct, not_bars_of_held? there, there]
  cases here : present.held? way with
  | none => simp
  | some old =>
      have taken := merge_of_not_dicts (apart old here)
        (merge_true_eq_none (way.getLastD key) old new)
      simp only [mergeAt_some, taken, Bool.false_eq_true, if_false]

theorem held?_of_both {old new : Node} (here : present.held? way = some old)
    (there : added.held? way = some new) (dicts : old.isDict = true ∧ new.isDict = true) :
    ∃ both, (merge true key present added).1.held? way = some both ∧ both.isDict = true ∧
      ∀ name, name ∈ both.names ↔ name ∈ old.names ∨ name ∈ new.names := by
  refine ⟨(merge true (way.getLastD key) old new).1, ?_, isDict_merge dicts.1 dicts.2, ?_⟩
  · rw [held?_overwritten distinct, not_bars_of_held? there, here, there]
    rfl
  · intro name
    rw [names_merge (distinct.held? there) (merge_true_eq_none _ old new) (fun _ => dicts.2),
      List.mem_append, List.mem_filter, decide_eq_true_eq]
    tauto

theorem overwritten_merge (key : String) (present : Node) :
    Overwritten present added (merge true key present added).1 := by
  constructor
  · intro way leaf there kind
    apply held?_of_added distinct there
    simp [kind]
  · intro way old new here there one two
    exact held?_of_both distinct here there ⟨one, two⟩
  · intro way old new here there one two
    apply held?_of_added distinct there
    intro other same
    rw [here] at same
    cases same
    simp [one]
  · intro way old here nothing clear
    rw [held?_overwritten distinct, clear.bars, nothing, here]
    rfl
  · intro way clear
    refine namesAt_merge distinct (merge_true_eq_none key present added) clear.bars ?_
    exact fun old new _ there _ => clear way new (List.prefix_refl way) there

end

end Node

namespace Context

variable {context update : Context}

/-- Merging with overwriting always succeeds, the update prevails, and a second time changes
nothing. -/
theorem merge_overwriting (distinct : update.Distinct)
    (untouched : ∀ key ∈ context.reserved, key ∉ update.keys) :
    (context.merge update true).1 = .ok () ∧
      Node.Overwritten context.root update.root (context.merge update true).2.root ∧
      (context.merge update true).2.merge update true =
        (.ok (), (context.merge update true).2) := by
  have whole : update.root.Distinct := (distinct_root update).mpr distinct
  refine ⟨?_, ?_, ?_⟩
  · rw [merge_eq_ok_iff untouched true ""]
    exact Node.merge_true_eq_none "" context.root update.root
  · rw [root_merge_of_untouched untouched true ""]
    exact Node.overwritten_merge whole "" context.root
  · have again := (Node.settles update.root whole "").2 context.root
    rw [Node.Absorbs, root, root, Node.merge, Node.merge, Prod.mk.injEq, Node.dict.injEq] at again
    obtain ⟨⟨same, -⟩, done⟩ := again
    rw [merge_of_untouched untouched, merge_of_untouched]
    · dsimp only
      rw [same, done]
    · exact untouched

/-- Variables in which a scalar stands where the update has a dictionary, and a dictionary where it
has a list. -/
def defaults : Context :=
  ofEntries (.ofSource "params.yaml" false)
    [("model", .string "cnn"), ("data", .dict [("files", .dict [("raw", .string "a")])]),
      ("seed", .int 1)]

def experiment : Context :=
  ofEntries (.ofSource "experiment.yaml" false)
    [("model", .dict [("layers", .int 3)]), ("data", .dict [("files", .list []), ("fold", .int 2)])]

theorem defaults_merge_experiment :
    experiment.Distinct ∧ (∀ key ∈ defaults.reserved, key ∉ experiment.keys) ∧
      Node.Overwritten defaults.root experiment.root (defaults.merge experiment true).2.root ∧
      (defaults.merge experiment true).2.merge experiment true =
        (.ok (), (defaults.merge experiment true).2) := by
  have distinct : experiment.Distinct := by decide
  have untouched : ∀ key ∈ defaults.reserved, key ∉ experiment.keys := by decide
  exact ⟨distinct, untouched, (merge_overwriting distinct untouched).2⟩

end Context

end StageTemplates
