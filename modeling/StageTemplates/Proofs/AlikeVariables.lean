import StageTemplates.Proofs.Outlines

set_option autoImplicit false

/-!
Variables with the same outline: their values differ in the order of entries only, and what is from
files is from the same places.
-/
namespace StageTemplates

namespace Value

/-- Equal but for the order in which dictionaries hold their entries. -/
inductive Alike : Value → Value → Prop where
  | same (value : Value) : Alike value value
  | dict {first second : List (String × Value)}
      (names : (Entries.keys first).Perm (Entries.keys second))
      (each : ∀ key one other, Entries.value? key first = some one →
        Entries.value? key second = some other → Alike one other) :
      Alike (.dict first) (.dict second)

end Value

namespace Origin

theorem isLocal_anonymous (origin : Origin) : origin.anonymous.isLocal = origin.isLocal := by
  unfold anonymous
  split <;> rfl

theorem anonymous_of_not_local {origin : Origin} (foreign : origin.isLocal = false) :
    origin.anonymous = origin := if_neg (by rw [foreign]; exact Bool.false_ne_true)

theorem anonymous_anonymous (origin : Origin) : origin.anonymous.anonymous = origin.anonymous := by
  cases kept : origin.isLocal with
  | false => rw [anonymous_of_not_local kept, anonymous_of_not_local kept]
  | true =>
      unfold anonymous
      rw [if_pos kept, if_pos kept]

theorem anonymous_child (origin : Origin) (segment : String) :
    (origin.child segment).anonymous = origin.anonymous.child segment := by
  unfold anonymous child
  split <;> rfl

/-- What is not local is told apart without its item. -/
theorem eq_of_anonymous {origin other : Origin} (foreign : origin.isLocal = false)
    (same : origin.anonymous = other.anonymous) : other = origin := by
  have foreign' : other.isLocal = false := by
    rw [← isLocal_anonymous, ← same, isLocal_anonymous, foreign]
  rw [← anonymous_of_not_local foreign, ← anonymous_of_not_local foreign', same]

end Origin

namespace Node

theorem anonymousItems_eq_map (items : List Node) : anonymousItems items = items.map anonymous := by
  induction items with
  | nil => rfl
  | cons item rest ih => rw [anonymousItems, ih, List.map_cons]

theorem value?_anonymousEntries (key : String) (entries : List (String × Node)) :
    Entries.value? key (anonymousEntries entries) =
      (Entries.value? key entries).map anonymous := by
  induction entries with
  | nil => rfl
  | cons entry rest ih =>
      obtain ⟨name, node⟩ := entry
      by_cases same : name = key
      · simp [anonymousEntries, Entries.value?, same]
      · simp [anonymousEntries, Entries.value?, same, ih]

theorem origin_anonymous (node : Node) : node.anonymous.origin = node.origin.anonymous := by
  cases node <;> rfl

mutual

theorem toValue_anonymous (node : Node) : node.anonymous.toValue = node.toValue := by
  match node with
  | .scalar value origin => rfl
  | .list items origin => rw [anonymous, toValue, toValue, toItems_anonymousItems items]
  | .dict entries origin => rw [anonymous, toValue, toValue, toEntries_anonymousEntries entries]

theorem toItems_anonymousItems (items : List Node) :
    toItems (anonymousItems items) = toItems items := by
  match items with
  | [] => rfl
  | item :: rest =>
      rw [anonymousItems, toItems, toItems, toValue_anonymous item, toItems_anonymousItems rest]

theorem toEntries_anonymousEntries (entries : List (String × Node)) :
    toEntries (anonymousEntries entries) = toEntries entries := by
  match entries with
  | [] => rfl
  | (key, node) :: rest =>
      rw [anonymousEntries, toEntries, toEntries, toValue_anonymous node,
        toEntries_anonymousEntries rest]

end

mutual

theorem anonymous_anonymous (node : Node) : node.anonymous.anonymous = node.anonymous := by
  match node with
  | .scalar value origin => rw [anonymous, anonymous, origin.anonymous_anonymous]
  | .list items origin =>
      rw [anonymous, anonymous, anonymousItems_anonymousItems items, origin.anonymous_anonymous]
  | .dict entries origin =>
      rw [anonymous, anonymous, anonymousEntries_anonymousEntries entries,
        origin.anonymous_anonymous]

theorem anonymousItems_anonymousItems (items : List Node) :
    anonymousItems (anonymousItems items) = anonymousItems items := by
  match items with
  | [] => rfl
  | item :: rest =>
      rw [anonymousItems, anonymousItems, anonymous_anonymous item,
        anonymousItems_anonymousItems rest]

theorem anonymousEntries_anonymousEntries (entries : List (String × Node)) :
    anonymousEntries (anonymousEntries entries) = anonymousEntries entries := by
  match entries with
  | [] => rfl
  | (key, node) :: rest =>
      rw [anonymousEntries, anonymousEntries, anonymous_anonymous node,
        anonymousEntries_anonymousEntries rest]

end

theorem mark_anonymous (node : Node) : node.anonymous.mark = node.mark := by
  cases node with
  | dict entries origin => rfl
  | scalar value origin => exact congrArg Mark.whole (anonymous_anonymous (.scalar value origin))
  | list items origin => exact congrArg Mark.whole (anonymous_anonymous (.list items origin))

/-- An outline does not tell the items of `vars` apart. -/
theorem outline_anonymous (node : Node) : node.anonymous.outline = node.outline := by
  funext way
  induction way generalizing node with
  | nil => exact congrArg some node.mark_anonymous
  | cons key way ih =>
      cases node with
      | scalar value origin => rfl
      | list items origin => rfl
      | dict entries origin =>
          rw [anonymous, outline_dict, outline_dict, Outline.ofEntries, Outline.ofEntries,
            value?_anonymousEntries]
          cases Entries.value? key entries with
          | none => rfl
          | some child => exact ih child

theorem outline_of_anonymous {node other : Node} (same : node.anonymous = other.anonymous) :
    node.outline = other.outline := by
  rw [← node.outline_anonymous, same, other.outline_anonymous]

/-- Nodes with one mark are dictionaries both, or equal but for the items of `vars`. -/
theorem mark_eq_iff {node other : Node} :
    node.mark = other.mark ↔ node.isDict = true ∧ other.isDict = true ∨
      node.isDict = false ∧ other.isDict = false ∧ node.anonymous = other.anonymous := by
  cases node <;> cases other <;> simp [mark, isDict]

mutual

/-- Only the item of `vars` that a local value is from tells its origins apart. -/
theorem anonymous_ofValue (origin : Origin) (value : Value) :
    (ofValue origin value).anonymous = ofValue origin.anonymous value := by
  match value with
  | .scalar value => rfl
  | .list items => rw [ofValue, anonymous, anonymousItems_ofItems origin 0 items, ofValue]
  | .dict entries => rw [ofValue, anonymous, anonymousEntries_ofEntries origin entries, ofValue]

theorem anonymousItems_ofItems (origin : Origin) (index : Nat) (items : List Value) :
    anonymousItems (ofItems origin index items) = ofItems origin.anonymous index items := by
  match items with
  | [] => rfl
  | item :: rest =>
      rw [ofItems, anonymousItems, anonymous_ofValue,
        anonymousItems_ofItems origin (index + 1) rest, ofItems, Origin.anonymous_child]

theorem anonymousEntries_ofEntries (origin : Origin) (entries : List (String × Value)) :
    anonymousEntries (ofEntries origin entries) = ofEntries origin.anonymous entries := by
  match entries with
  | [] => rfl
  | (key, value) :: rest =>
      rw [ofEntries, anonymousEntries, anonymous_ofValue, anonymousEntries_ofEntries origin rest,
        ofEntries, Origin.anonymous_child]

end

section

variable {node other : Node} (same : node.outline = other.outline)
include same

theorem mark_of_outline : node.mark = other.mark := Option.some.inj (congrFun same [])

theorem anonymous_of_outline (plain : node.isDict = false) :
    other.isDict = false ∧ node.anonymous = other.anonymous := by
  rcases mark_eq_iff.mp (mark_of_outline same) with ⟨one, -⟩ | ⟨-, both⟩
  · rw [plain] at one
    cases one
  · exact both

/-- Below nodes with one outline there are the same parts, with one outline again. -/
theorem child?_of_outline {segment : String} {child : Node}
    (found : node.child? segment = some child) :
    ∃ part, other.child? segment = some part ∧ child.outline = part.outline := by
  cases node with
  | scalar value origin => cases found
  | list items origin =>
      obtain ⟨-, alike⟩ := anonymous_of_outline same rfl
      cases other with
      | scalar value kept => cases alike
      | dict entries kept => cases alike
      | list others kept =>
          rw [anonymous, anonymous, list.injEq, anonymousItems_eq_map, anonymousItems_eq_map]
            at alike
          obtain ⟨index, numbered, there⟩ := Option.bind_eq_some_iff.mp found
          have mapped := congrArg (·[index]?) alike.1
          rw [List.getElem?_map, List.getElem?_map, there, Option.map_some] at mapped
          obtain ⟨part, here, alike⟩ := Option.map_eq_some_iff.mp mapped.symm
          refine ⟨part, ?_, outline_of_anonymous alike.symm⟩
          rw [child?, numbered]
          exact here
  | dict entries origin =>
      have dicts := mark_of_outline same
      cases other with
      | scalar value kept => cases dicts
      | list others kept => cases dicts
      | dict others kept =>
          have below : ∀ way,
              (Entries.value? segment entries).bind (fun child => child.outline way) =
                (Entries.value? segment others).bind fun child => child.outline way :=
            fun way => congrFun same (segment :: way)
          have found : Entries.value? segment entries = some child := found
          rw [found] at below
          cases there : Entries.value? segment others with
          | none =>
              rw [there] at below
              cases below []
          | some part =>
              rw [there] at below
              exact ⟨part, there, funext below⟩

theorem follow?_of_outline {way : List String} {reached : Node}
    (found : node.follow? way = some reached) :
    ∃ part, other.follow? way = some part ∧ reached.outline = part.outline := by
  induction way generalizing node other with
  | nil =>
      cases found
      exact ⟨other, rfl, same⟩
  | cons segment way ih =>
      obtain ⟨child, first, later⟩ := Option.bind_eq_some_iff.mp found
      obtain ⟨part, there, alike⟩ := child?_of_outline same first
      obtain ⟨last, here, alike⟩ := ih alike later
      refine ⟨last, ?_, alike⟩
      rw [follow?, there]
      exact here

end

mutual

/-- Values with one outline are equal but for order. -/
theorem alike_of_outline (node other : Node) (same : node.outline = other.outline)
    (distinct : node.Distinct) (distinct' : other.Distinct) :
    node.toValue.Alike other.toValue := by
  have whole : node.isDict = false → node.toValue.Alike other.toValue := by
    intro plain
    rw [← node.toValue_anonymous, (anonymous_of_outline same plain).2, other.toValue_anonymous]
    exact .same _
  match node with
  | .scalar value origin => exact whole rfl
  | .list items origin => exact whole rfl
  | .dict entries origin =>
      have dicts := mark_of_outline same
      cases other with
      | scalar value kept => cases dicts
      | list others kept => cases dicts
      | dict others kept =>
          rw [distinct_dict] at distinct distinct'
          have child : ∀ {one two : Node}, one.outline = two.outline → ∀ key,
              (∃ part, one.child? key = some part) → ∃ part, two.child? key = some part := by
            rintro one two alike key ⟨part, found⟩
            obtain ⟨twin, there, -⟩ := child?_of_outline alike found
            exact ⟨twin, there⟩
          have named : ∀ (entries : Entries Node) key,
              key ∈ Entries.keys entries ↔ ∃ part, Entries.value? key entries = some part := by
            intro entries key
            rw [← Option.isSome_iff_exists, ← Entries.has_eq_true_iff]
            rfl
          refine .dict ?_ ?_
          · rw [keys_toEntries, keys_toEntries,
              List.perm_ext_iff_of_nodup distinct.1 distinct'.1]
            intro key
            rw [named, named]
            exact ⟨child same key, child same.symm key⟩
          · intro key one two here there
            rw [value?_toEntries] at here there
            obtain ⟨part, found, rfl⟩ := Option.map_eq_some_iff.mp here
            obtain ⟨twin, stands, rfl⟩ := Option.map_eq_some_iff.mp there
            obtain ⟨again, held, alike⟩ : ∃ again,
                Entries.value? key others = some again ∧ part.outline = again.outline :=
              child?_of_outline same found
            cases stands.symm.trans held
            exact alike_of_outline_entries entries (key, part) (Entries.mem_of_value? found) twin
              alike (distinct.2 _ (Entries.mem_of_value? found))
              (distinct'.2 _ (Entries.mem_of_value? stands))

theorem alike_of_outline_entries (entries : List (String × Node)) :
    ∀ entry ∈ entries, ∀ other : Node, entry.2.outline = other.outline → entry.2.Distinct →
      other.Distinct → entry.2.toValue.Alike other.toValue := by
  match entries with
  | [] =>
      intro entry member
      cases member
  | (key, node) :: rest =>
      rw [List.forall_mem_cons]
      exact ⟨fun other => alike_of_outline node other, alike_of_outline_entries rest⟩

end

/-- A way leads to a value that is no dictionary, and that comes from the given place. -/
def Supplies (node : Node) (way : List String) (origin : Origin) (value : Value) : Prop :=
  ∃ part, node.follow? way = some part ∧ part.isDict = false ∧ part.origin = origin ∧
    part.toValue = value

/-- What is not local comes from one place wherever there is one outline. -/
theorem Supplies.of_outline {node other : Node} (same : node.outline = other.outline)
    {way : List String} {origin : Origin} {value : Value} (foreign : origin.isLocal = false)
    (supplies : node.Supplies way origin value) : other.Supplies way origin value := by
  obtain ⟨part, found, plain, rfl, rfl⟩ := supplies
  obtain ⟨twin, there, alike⟩ := follow?_of_outline same found
  obtain ⟨plain', anonymous⟩ := anonymous_of_outline alike plain
  refine ⟨twin, there, plain', ?_, ?_⟩
  · refine Origin.eq_of_anonymous foreign ?_
    rw [← origin_anonymous, ← origin_anonymous, anonymous]
  · rw [← twin.toValue_anonymous, ← anonymous, part.toValue_anonymous]

end Node

end StageTemplates
