import StageTemplates.Proofs.ChosenWays
import StageTemplates.Proofs.DisjointMerge

set_option autoImplicit false

/-!
A merge without overwriting that fails stops at the first way of the update at which both sides are
at odds. What it leaves is what merging the part of the update before that way would leave.
-/
namespace StageTemplates

namespace Node

/-- How far a merge into a node came: past some ways of the update, at none of which both sides are
at odds, to one at which they are. -/
structure StopsAt (key : String) (present added : Node) (before : List (List String))
    (way : List String) (error : ContextError) : Prop where
  order : ∃ later, added.ways = before ++ way :: later
  clash : ∃ one other, present.held? way = some one ∧ added.held? way = some other ∧
    ¬ (one.isDict = true ∧ other.isDict = true) ∧
      error = .merge (way.getLastD key) (.between (way.getLastD key) one other)
  first : ∀ earlier ∈ before, ¬ present.Clashes added earlier
  stays : way = [] → before = [] ∧ (merge false key present added).1 = present
  merges : way ≠ [] → [] ∈ before ∧ merge false key present (added.only (· ∈ before)) =
    ((merge false key present added).1, none)

/-- How far a merge into entries came. -/
structure StopsIn (into : Entries Node) (added : List (String × Node))
    (before : List (List String)) (name : String) (way : List String) (error : ContextError) :
    Prop where
  order : ∃ later, waysIn added = before ++ (name :: way) :: later
  clash : ∃ one other, (Entries.value? name into).bind (held? way) = some one ∧
    (Entries.value? name added).bind (held? way) = some other ∧
      ¬ (one.isDict = true ∧ other.isDict = true) ∧
        error = .merge (way.getLastD name) (.between (way.getLastD name) one other)
  first : ∀ earlier below, earlier :: below ∈ before → ∀ one other,
    Entries.value? earlier into = some one → Entries.value? earlier added = some other →
      ¬ one.Clashes other below
  merges : mergeEntries false into (onlyIn (· ∈ before) added) =
    ((mergeEntries false into added).1, none)

section Stops

variable {key name : String} {node present added placed : Node} {into : Entries Node}
  {rest : List (String × Node)} {before : List (List String)} {way : List String}
  {error : ContextError}

/-- Nodes that are not both dictionaries stop a merge at once. -/
theorem stopsAt_of_not_dicts (apart : ¬ (present.isDict = true ∧ added.isDict = true))
    (stopped : (merge false key present added).2 = some error) :
    StopsAt key present added [] [] error := by
  have stays : merge false key present added = replaced false key present added :=
    merge_eq_replaced apart
  constructor
  · cases added with
    | scalar value origin => exact ⟨[], rfl⟩
    | list items origin => exact ⟨[], rfl⟩
    | dict entries origin => exact ⟨waysIn entries, rfl⟩
  · rw [stays] at stopped
    exact ⟨present, added, held?_nil present, held?_nil added, apart,
      (Option.some.inj stopped).symm⟩
  · intro earlier member
    cases member
  · intro _
    rw [stays]
    exact ⟨rfl, rfl⟩
  · intro below
    exact absurd rfl below

/-- What stops the merge of one entry stops that of all of them. -/
theorem StopsAt.inFirst (absent : key ∉ Entries.keys rest)
    (found : Entries.value? key into = some present)
    (stopped : (merge false key present node).2 = some error)
    (stops : StopsAt key present node before way error) :
    StopsIn into ((key, node) :: rest) (before.map (key :: ·)) key way error := by
  have untaken : onlyIn (· ∈ before.map (key :: ·)) rest = [] := by
    apply onlyIn_of_none
    intro name member
    have different : key ≠ name := fun same => absent (same ▸ member)
    simp [different]
  constructor
  · obtain ⟨later, split⟩ := stops.order
    refine ⟨later.map (key :: ·) ++ waysIn rest, ?_⟩
    rw [waysIn, split]
    simp
  · rw [found, Entries.value?_cons_self]
    exact stops.clash
  · intro earlier below member one other here there
    obtain ⟨inner, among, same⟩ := List.mem_map.mp member
    obtain ⟨rfl, rfl⟩ := List.cons.inj same
    rw [found] at here
    rw [Entries.value?_cons_self] at there
    cases here
    cases there
    exact stops.first inner among
  · rw [mergeEntries_cons_of_conflict found stopped, onlyIn, untaken]
    -- Nodes at odds themselves leave nothing of the update here; else the part before is merged.
    by_cases top : way = []
    · obtain ⟨rfl, same⟩ := stops.stays top
      rw [same, Entries.put_of_value? found]
      rfl
    · obtain ⟨taken, merged⟩ := stops.merges top
      have below : node.only (fun way => decide (key :: way ∈ before.map (key :: ·))) =
          node.only (· ∈ before) := by
        apply only_congr
        intro way _
        simp
      have success : (merge false key present (node.only (· ∈ before))).2 = none := by rw [merged]
      rw [if_pos (by simpa using taken), below, mergeEntries_cons_of_merged found success, merged]
      rfl

/-- What stops the merge of later entries stops that of all of them. -/
theorem StopsIn.afterFirst (absent : key ∉ Entries.keys rest)
    (step : ∀ rest, mergeEntries false into ((key, node) :: rest) =
      mergeEntries false (Entries.put key placed into) rest)
    (clear : ∀ present, Entries.value? key into = some present → ∀ way,
      ¬ present.Clashes node way)
    (stops : StopsIn (Entries.put key placed into) rest before name way error) :
    StopsIn into ((key, node) :: rest) (node.ways.map (key :: ·) ++ before) name way error := by
  obtain ⟨later, split⟩ := stops.order
  -- No way of the rest begins with the first name, so the first entry plays no part in them.
  have apart : ∀ other below, other :: below ∈ waysIn rest → key ≠ other := by
    intro other below member same
    obtain ⟨first, tail, equal, inside⟩ := exists_of_mem_waysIn member
    obtain ⟨rfl, rfl⟩ := List.cons.inj equal
    exact absent (same ▸ inside)
  constructor
  · refine ⟨later, ?_⟩
    rw [waysIn, split, List.append_assoc]
  · have different : key ≠ name := apart name way (by rw [split]; simp)
    obtain ⟨one, other, here, there, odds⟩ := stops.clash
    rw [Entries.value?_put_of_ne (Ne.symm different)] at here
    refine ⟨one, other, here, ?_, odds⟩
    rw [Entries.value?_cons_of_ne different, there]
  · intro earlier below member one other here there
    rcases List.mem_append.mp member with inside | among
    · obtain ⟨inner, -, same⟩ := List.mem_map.mp inside
      obtain ⟨rfl, rfl⟩ := List.cons.inj same
      rw [Entries.value?_cons_self] at there
      cases there
      exact clear one here inner
    · have different : key ≠ earlier := apart earlier below (by rw [split]; simp [among])
      rw [Entries.value?_cons_of_ne different] at there
      refine stops.first earlier below among one other ?_ there
      rw [Entries.value?_put_of_ne (Ne.symm different), here]
  · have whole : node.only
        (fun way => decide (key :: way ∈ node.ways.map (key :: ·) ++ before)) = node := by
      apply only_of_all
      intro way member
      simp [member]
    have others : onlyIn (· ∈ node.ways.map (key :: ·) ++ before) rest =
        onlyIn (· ∈ before) rest := by
      apply onlyIn_congr
      intro way member
      obtain ⟨first, below, rfl, -⟩ := exists_of_mem_waysIn member
      have different := apart first below member
      simp [different]
    have taken : decide ([key] ∈ node.ways.map (key :: ·) ++ before) = true := by
      simp [nil_mem_ways]
    rw [onlyIn, if_pos taken, whole, others, step, step, stops.merges]

/-- What stops the merge of entries stops that of the dictionaries that they are in. -/
theorem StopsIn.inDict {added : List (String × Node)} {kept origin : Origin}
    (stops : StopsIn into added before name way error) :
    StopsAt key (.dict into kept) (.dict added origin) ([] :: before) (name :: way) error := by
  obtain ⟨later, split⟩ := stops.order
  constructor
  · refine ⟨later, ?_⟩
    rw [ways, split]
    rfl
  · rw [held?_dict_cons, held?_dict_cons, List.getLastD_cons]
    exact stops.clash
  · intro earlier member
    rintro ⟨one, other, here, there, apart⟩
    cases earlier with
    | nil =>
        rw [held?_nil] at here there
        cases here
        cases there
        exact apart ⟨rfl, rfl⟩
    | cons first below =>
        have among : first :: below ∈ before := by simpa using member
        obtain ⟨old, one', here⟩ := Option.bind_eq_some_iff.mp here
        obtain ⟨new, two', there⟩ := Option.bind_eq_some_iff.mp there
        exact stops.first first below among old new one' two' ⟨one, other, here, there, apart⟩
  · intro top
    cases top
  · intro _
    have same : onlyIn (· ∈ [] :: before) added = onlyIn (· ∈ before) added := by
      apply onlyIn_congr
      intro way member
      obtain ⟨first, below, rfl, -⟩ := exists_of_mem_waysIn member
      simp
    refine ⟨List.mem_cons_self, ?_⟩
    rw [only, merge, merge, same, stops.merges]

end Stops

mutual

/-- A merge that fails stops at the first way at which both sides are at odds. -/
theorem stops_at (key : String) (present added : Node) (distinct : added.Distinct)
    {error : ContextError} (stopped : (merge false key present added).2 = some error) :
    ∃ before way, StopsAt key present added before way error := by
  match added with
  | .scalar value origin => exact ⟨[], [], stopsAt_of_not_dicts (by simp [isDict]) stopped⟩
  | .list items origin => exact ⟨[], [], stopsAt_of_not_dicts (by simp [isDict]) stopped⟩
  | .dict added origin =>
      cases present with
      | scalar value kept => exact ⟨[], [], stopsAt_of_not_dicts (by simp [isDict]) stopped⟩
      | list items kept => exact ⟨[], [], stopsAt_of_not_dicts (by simp [isDict]) stopped⟩
      | dict into kept =>
          have parts := (distinct_dict added origin).mp distinct
          obtain ⟨before, name, way, stops⟩ := stops_in into added parts stopped
          exact ⟨[] :: before, name :: way, stops.inDict⟩

theorem stops_in (into : Entries Node) (added : List (String × Node))
    (distinct : (Entries.keys added).Nodup ∧ ∀ entry ∈ added, entry.2.Distinct)
    {error : ContextError} (stopped : (mergeEntries false into added).2 = some error) :
    ∃ before name way, StopsIn into added before name way error := by
  match added with
  | [] => cases stopped
  | (key, node) :: rest =>
      rw [Entries.keys_cons, List.nodup_cons, List.forall_mem_cons] at distinct
      obtain ⟨⟨absent, names⟩, here, later⟩ := distinct
      -- Once the first entry is taken, it is the rest that stops the merge.
      have afterFirst : ∀ placed,
          (∀ rest, mergeEntries false into ((key, node) :: rest) =
            mergeEntries false (Entries.put key placed into) rest) →
          (∀ present, Entries.value? key into = some present → ∀ way,
            ¬ present.Clashes node way) →
          ∃ before name way, StopsIn into ((key, node) :: rest) before name way error := by
        intro placed step clear
        rw [step] at stopped
        obtain ⟨before, name, way, stops⟩ := stops_in _ rest ⟨names, later⟩ stopped
        exact ⟨_, name, way, stops.afterFirst absent step clear⟩
      cases found : Entries.value? key into with
      | none =>
          have free := (Entries.value?_eq_none_iff key into).mp found
          refine afterFirst node ?_ ?_
          · intro rest
            rw [mergeEntries_cons_of_none found, Entries.put_of_not_mem free]
          · intro present there
            rw [found] at there
            cases there
      | some present =>
          cases ended : (merge false key present node).2 with
          | none =>
              refine afterFirst _ (mergeEntries_cons_of_merged found ended) ?_
              intro other there
              rw [found] at there
              cases there
              exact (merge_eq_none_iff here).mp ended
          | some conflict =>
              rw [mergeEntries_cons_of_conflict found ended] at stopped
              cases stopped
              obtain ⟨before, way, stops⟩ := stops_at key present node here ended
              exact ⟨_, key, way, stops.inFirst absent found ended⟩

end

end Node

namespace Context

/-- The variables with those entries, at every depth, whose ways are chosen. -/
def only (context : Context) (chosen : List String → Bool) : Context :=
  { context with data := Node.onlyIn chosen context.data }

/-- What a merge leaves that stopped at the first way of the update at which both sides are at
odds: what merging the part of the update before that way leaves. -/
structure StoppedAt (context update after : Context) (key : String) (why : MergeConflict)
    (before : List (List String)) (way : List String) : Prop where
  order : ∃ later, update.root.ways = before ++ way :: later
  clash : context.root.Clashes update.root way
  first : ∀ earlier ∈ before, ¬ context.root.Clashes update.root earlier
  named : way.getLast? = some key
  reason : ∀ one other, context.root.held? way = some one → update.root.held? way = some other →
    why = .between key one other
  merged : context.merge (update.only (· ∈ before)) false = (.ok (), after)
  leaves : ∀ way leaf, leaf.isDict = false → context.root.held? way = some leaf →
    after.root.held? way = some leaf
  dicts : ∀ way, context.root.DictAt way → after.root.DictAt way
  names : ∀ way, context.root.namesAt way <+: after.root.namesAt way
  added : ∀ way node, after.root.held? way = some node →
    (∃ old, context.root.held? way = some old) ∨ way ∈ before
  rest : after = { context with data := after.data }

variable {context update : Context}

theorem untouched_only (untouched : ∀ key ∈ context.reserved, key ∉ update.keys)
    (chosen : List String → Bool) :
    ∀ key ∈ context.reserved, key ∉ (update.only chosen).keys := by
  intro key reserved member
  exact untouched key reserved ((Node.keys_onlyIn_sublist update.data).subset member)

/-- What is in a disjoint union with chosen parts of an update. -/
theorem added_of_disjointUnion {chosen : List String → Bool} {after : Context}
    (union : Node.DisjointUnion context.root (update.only chosen).root after.root)
    {way : List String} {node : Node} (found : after.root.held? way = some node) :
    (∃ old, context.root.held? way = some old) ∨ chosen way = true := by
  have side : (∃ old, context.root.held? way = some old) ∨
      ∃ new, (update.only chosen).root.held? way = some new := by
    cases kind : node.isDict with
    | false => exact ((union.leaves way node kind).mp found).imp (⟨node, ·⟩) (⟨node, ·⟩)
    | true =>
        obtain ⟨entries, origin, rfl⟩ := Node.exists_of_isDict kind
        rcases (union.dicts way).mp ⟨entries, origin, found⟩ with ⟨_, _, old⟩ | ⟨_, _, new⟩
        · exact Or.inl ⟨_, old⟩
        · exact Or.inr ⟨_, new⟩
  rcases side with old | ⟨new, there⟩
  · exact Or.inl old
  · have held : ((update.root).only chosen).held? way = some new := there
    rcases Node.chosen_of_held?_only held with rfl | taken
    · exact Or.inl ⟨context.root, Node.held?_nil _⟩
    · exact Or.inr taken

theorem stoppedAt_of_stopsAt (distinct : update.Distinct)
    (untouched : ∀ key ∈ context.reserved, key ∉ update.keys) {name key : String}
    {why : MergeConflict} {before : List (List String)} {way : List String}
    (stops : Node.StopsAt name context.root update.root before way (.merge key why)) :
    StoppedAt context update (context.merge update false).2 key why before way := by
  obtain ⟨one, other, here, there, odds, error⟩ := stops.clash
  rw [ContextError.merge.injEq] at error
  obtain ⟨rfl, rfl⟩ := error
  -- The roots are dictionaries, so they are not what is at odds.
  obtain ⟨first, below, rfl⟩ : ∃ first below, way = first :: below := by
    apply List.exists_cons_of_ne_nil
    rintro rfl
    rw [Node.held?_nil] at here there
    cases here
    cases there
    exact odds ⟨rfl, rfl⟩
  obtain ⟨-, merged⟩ := stops.merges (List.cons_ne_nil first below)
  have part : (update.root.only (· ∈ before)).Distinct :=
    Node.distinct_only _ ((distinct_root update).mpr distinct)
  have success : (Node.merge false name context.root (update.root.only (· ∈ before))).2 = none := by
    rw [merged]
  have union : Node.DisjointUnion context.root (update.only (· ∈ before)).root
      (context.merge update false).2.root := by
    have clear := (Node.merge_eq_none_iff part).mp success
    have whole : Node.DisjointUnion context.root (update.root.only (· ∈ before))
        (Node.merge false name context.root (update.root.only (· ∈ before))).1 :=
      Node.disjointUnion_of_clear clear part
    rw [merged, ← root_merge_of_untouched untouched] at whole
    exact whole
  constructor
  · exact stops.order
  · exact ⟨one, other, here, there, odds⟩
  · exact stops.first
  · rw [List.getLast?_cons, List.getLastD_cons, List.getLastD_eq_getLast?]
  · intro one' other' here' there'
    rw [here] at here'
    rw [there] at there'
    cases here'
    cases there'
    rfl
  · rw [root, root, Node.only, Node.merge, Node.merge, Prod.mk.injEq, Node.dict.injEq] at merged
    obtain ⟨⟨data, -⟩, done⟩ := merged
    rw [merge_of_untouched (untouched_only untouched _), merge_of_untouched untouched, only]
    dsimp only
    rw [done, data]
  · intro way leaf kind found
    exact (union.leaves way leaf kind).mpr (Or.inl found)
  · intro way dict
    exact (union.dicts way).mpr (Or.inl dict)
  · intro way
    rw [union.names way]
    exact List.prefix_append _ _
  · intro way node found
    exact (added_of_disjointUnion union found).imp_right of_decide_eq_true
  · rw [merge_of_untouched untouched]

/-- A merge that fails leaves what it merged before the first way at which both sides are at odds,
and one that would touch reserved names leaves everything as it is. -/
theorem merge_stopped (distinct : update.Distinct) :
    (∀ key why, (context.merge update false).1 = .error (.merge key why) →
        ∃ before way,
          StoppedAt context update (context.merge update false).2 key why before way) ∧
      ∀ keys item?, (context.merge update false).1 = .error (.reservedKey keys item?) →
        (context.merge update false).2 = context := by
  cases touched : context.touched update with
  | cons name names =>
      have refused : context.merge update false =
          (.error (.reservedKey (name :: names) none), context) := by
        rw [merge, touched]
      rw [refused]
      refine ⟨?_, fun _ _ _ => rfl⟩
      intro key why failed
      cases failed
  | nil =>
      have untouched := touched_eq_nil_iff.mp touched
      have outcome := congrArg Prod.fst (merge_of_untouched untouched false)
      cases ended : (Node.merge false "" context.root update.root).2 with
      | none =>
          have done := (merge_eq_ok_iff untouched false "").mpr ended
          rw [done]
          constructor
          · intro key why failed
            cases failed
          · intro keys item? failed
            cases failed
      | some error =>
          have failed : (context.merge update false).1 = .error error := by
            have same : (Node.mergeEntries false context.data update.data).2 = some error := ended
            rw [outcome, same]
          have whole : update.root.Distinct := (distinct_root update).mpr distinct
          obtain ⟨before, way, stops⟩ := Node.stops_at "" context.root update.root whole ended
          rw [failed]
          constructor
          · intro key why same
            rw [Except.error.injEq] at same
            subst same
            exact ⟨before, way, stoppedAt_of_stopsAt distinct untouched stops⟩
          · intro keys item? same
            obtain ⟨_, _, _, _, _, merged⟩ := stops.clash
            rw [Except.error.injEq, merged] at same
            cases same

/-- Variables of which a dictionary in a dictionary holds a scalar. -/
def measured : Context :=
  ofEntries (.ofSource "params.yaml" false)
    [("runs", .dict [("first", .dict [("seed", .int 1)])]), ("limit", .int 9)]

/-- An update that holds a list where those have that scalar, between other entries. -/
def remeasured : Context :=
  ofEntries (.ofSource "more.yaml" false)
    [("title", .string "again"),
      ("runs", .dict [("first", .dict [("steps", .int 5), ("seed", .list []), ("rate", .int 2)]),
        ("second", .dict [])]),
      ("limit", .int 3)]

theorem measured_merge_remeasured :
    remeasured.Distinct ∧
      ∃ why, (measured.merge remeasured false).1 = .error (.merge "seed" why) ∧
        ∃ before way,
          StoppedAt measured remeasured (measured.merge remeasured false).2 "seed" why before
            way := by
  have distinct : remeasured.Distinct := by decide
  have failed : (measured.merge remeasured false).1 =
      .error (.merge "seed" (.inFiles "runs.first.seed" "more.yaml" "params.yaml")) := by
    decide
  exact ⟨distinct, _, failed, (merge_stopped distinct).1 _ _ failed⟩

end Context

end StageTemplates
