import Mathlib.Data.List.Perm.Subperm
import StageTemplates.Proofs.StageNames

set_option autoImplicit false

/-!
When all stages are resolved together, each announced name holds the stage of the definition that
announces it, unless an `@` in the name of an entry or in the key of a member leads elsewhere.
-/
namespace StageTemplates

/-- A list from which no name was lost has all its names apart. -/
theorem Entries.nodup_keys_of_length {α : Type} {entries : List (String × α)}
    (same : (keys (ofList entries)).length = entries.length) : (keys entries).Nodup := by
  have distinct := nodup_keys_ofList entries
  have within : keys (ofList entries) ⊆ keys entries := fun name member =>
    (mem_keys_ofList name entries).mp member
  have counted : (keys entries).length = entries.length := List.length_map ..
  have short : (keys entries).length ≤ (keys (ofList entries)).length :=
    Nat.le_of_eq (counted.trans same.symm)
  exact ((List.subperm_of_subset distinct within).perm_of_length_le short).nodup_iff.mp distinct

namespace Resolver

/-- What the definition that announces a name makes of it. -/
inductive Announced (definitions : Entries Definition) (context : Context) :
    String → Except StageError Stage → Prop
  | entry {name : String} {written : Entry} (present : (name, .entry written) ∈ definitions) :
      Announced definitions context name ((written.resolve context).1.mapError .resolve)
  | member {group key : String} {template : Foreach} {keyed : Entries Node}
      (present : (group, .foreach template) ∈ definitions)
      (reached : (Expansion.keyed ⟨template, context, []⟩).1 = .ok keyed)
      (within : key ∈ Entries.keys keyed) :
      Announced definitions context (memberName group key)
        (Expansion.resolveOne ⟨template, context, []⟩ key).1

variable {definitions : Entries Definition} {context : Context} {names : List String}

/-- Of names that are all different, each has one definition. -/
theorem owner_unique (listed : namesIn definitions context = .ok names) (single : names.Nodup)
    {name : String} {first second : String × Definition} (here : first ∈ definitions)
    (there : second ∈ definitions) {own other : List String}
    (ours : Definition.namesIn context.data context.style first = .ok own)
    (theirs : Definition.namesIn context.data context.style second = .ok other)
    (mine : name ∈ own) (its : name ∈ other) : first = second := by
  induction definitions generalizing names with
  | nil => simp at here
  | cons entry rest ih =>
      obtain ⟨key, definition⟩ := entry
      rw [namesIn_cons] at listed
      split at listed
      · cases listed
      · next head given =>
          obtain ⟨others, left, rfl⟩ := map_eq_ok_iff.mp listed
          rw [List.nodup_append] at single
          obtain ⟨-, apart, disjoint⟩ := single
          rcases List.mem_cons.mp here with rfl | here <;>
            rcases List.mem_cons.mp there with rfl | there
          · rfl
          · cases ours.symm.trans given
            have later := (mem_namesIn_iff left name).mpr ⟨second, there, other, theirs, its⟩
            exact absurd rfl (disjoint name mine name later)
          · cases theirs.symm.trans given
            have later := (mem_namesIn_iff left name).mpr ⟨first, here, own, ours, mine⟩
            exact absurd rfl (disjoint name its name later)
          · exact ih left apart here there

theorem stageIn_of_entry (named : Named definitions) {name group : String} {written : Entry}
    (present : (group, .entry written) ∈ definitions) (split : splitName name = (group, none)) :
    stageIn definitions context name =
      (written.checkedOutcome context.data context.style).mapError .resolve := by
  rw [stageIn, split]
  dsimp only
  rw [named.value?_iff.mpr present]

theorem stageIn_of_member (named : Named definitions) {name group key : String}
    {template : Foreach} {members : Node} (present : (group, .foreach template) ∈ definitions)
    (reached : template.membersIn context.data context.style = .ok members)
    (within : key ∈ Entries.keys (Foreach.keyed members))
    (split : splitName name = (group, some key)) :
    stageIn definitions context name =
      template.stageOf context.data context.style members key := by
  rw [stageIn, split]
  dsimp only
  rw [named.value?_iff.mpr present]
  dsimp only
  rw [Foreach.namedIn, reached]
  dsimp only
  rw [if_pos ((Entries.has_eq_true_iff _ _).mpr within)]

/-- A stage found under its own name stands under the name of an entry, or of a member. -/
theorem stageIn_own (named : Named definitions) {name : String} {stage : Stage}
    (given : stageIn definitions context name = .ok stage) (own : stage.name = name) :
    (∃ written, (name, .entry written) ∈ definitions ∧ '@' ∉ name.toList) ∨
    ∃ group template members key, (group, .foreach template) ∈ definitions ∧
      template.membersIn context.data context.style = .ok members ∧
      key ∈ Entries.keys (Foreach.keyed members) ∧ '@' ∉ key.toList ∧
      name = memberName group key := by
  rcases (hasIn_eq_true_iff named name).mp (hasIn_of_stageIn given) with
    ⟨group, written, present, split⟩ | ⟨group, template, members, key, present, reached, within,
      split⟩
  · rw [stageIn_of_entry named present split] at given
    have called := Entry.checkedOutcome_name (Foreach.ok_of_mapError_ok given)
    have entitled : written.name = group := named.named _ present
    have same : name = group := own.symm.trans (called.trans entitled)
    rcases splitName_eq_none_iff.mp split with ⟨-, plain⟩ | marked
    · exact Or.inl ⟨written, same ▸ present, same ▸ plain⟩
    · have lengths := congrArg String.length (same.symm.trans marked)
      simp at lengths
  · obtain ⟨whole, -, plain⟩ := splitName_eq_some_iff.mp split
    exact Or.inr ⟨group, template, members, key, present, reached, within, plain, whole⟩

/-- If no name is lost on the way to the document, each name gives a stage of that name. -/
theorem own_names {stages : List Stage}
    (each : List.Forall₂ (fun name stage => stageIn definitions context name = .ok stage) names
      stages)
    (kept : Entries.keys (Entries.ofList (stages.map Stage.entry)) = names) :
    ∀ name ∈ names, ∃ stage, stageIn definitions context name = .ok stage ∧
      stage.name = name := by
  -- There are as many names as stages, so no stage was written over another.
  have apart : (Entries.keys (stages.map Stage.entry)).Nodup := by
    refine Entries.nodup_keys_of_length ?_
    rw [kept, List.length_map, each.length_eq]
  rw [Entries.ofList_of_nodup apart, Stage.keys_map_entry] at kept
  subst kept
  rw [List.forall₂_map_left_iff, List.forall₂_same] at each
  intro name member
  obtain ⟨stage, present, rfl⟩ := List.mem_map.mp member
  exact ⟨stage, each stage present, rfl⟩

theorem unmarked_of_own_names (named : Named definitions)
    (listed : namesIn definitions context = .ok names) (single : names.Nodup)
    (own : ∀ name ∈ names, ∃ stage, stageIn definitions context name = .ok stage ∧
      stage.name = name) : Unmarked definitions context := by
  constructor
  · intro name written present
    have member := (mem_namesIn_iff_mem named listed name).mpr (Or.inl ⟨written, present⟩)
    obtain ⟨stage, given, called⟩ := own name member
    rcases stageIn_own named given called with ⟨-, -, plain⟩ | ⟨group, template, members, key,
      there, reached, within, -, rfl⟩
    · exact plain
    · have same := owner_unique listed single present there rfl
        (named.namesIn_foreach there reached) (List.mem_singleton_self _)
        (List.mem_map_of_mem within)
      cases congrArg Prod.snd same
  · intro group template members present reached key within
    have member := (mem_namesIn_iff_mem named listed (memberName group key)).mpr
      (Or.inr ⟨group, template, members, key, present, reached, within, rfl⟩)
    obtain ⟨stage, given, called⟩ := own _ member
    rcases stageIn_own named given called with ⟨-, -, plain⟩ | ⟨other, template', members', key',
      there, reached', within', plain, whole⟩
    · rw [toList_memberName] at plain
      exact absurd (by simp) plain
    · have same := owner_unique listed single present there
        (named.namesIn_foreach present reached) (named.namesIn_foreach there reached')
        (List.mem_map_of_mem within) (whole ▸ List.mem_map_of_mem within')
      cases same
      rw [memberName_injective group whole]
      exact plain

/-- Without marks, the stage under an announced name is what its definition makes of it. -/
theorem Announced.eq_ok (unmarked : Unmarked definitions context) (named : Named definitions)
    (settled : ∀ entry ∈ definitions, entry.2.Settled context.data context.style)
    {name : String} {outcome : Except StageError Stage}
    (announced : Announced definitions context name outcome) {stage : Stage}
    (given : stageIn definitions context name = .ok stage) :
    outcome = .ok stage ∧ stage.name = name := by
  cases announced with
  | entry present =>
      have split := splitName_of_not_mem (unmarked.entries _ _ present)
      rw [stageIn_of_entry named present split] at given
      rw [Entry.resolve_eq]
      have called := Entry.checkedOutcome_name (Foreach.ok_of_mapError_ok given)
      exact ⟨given, called.trans (named.named _ present)⟩
  | @member group key template keyed present reached within =>
      have whole : Expansion.Settled ⟨template, context, []⟩ := settled _ present
      obtain ⟨members, found, rfl⟩ := (Expansion.keyed_eq_ok_iff whole).mp reached
      have plain := unmarked.members group template members present found key within
      have split := splitName_memberName plain group
      by_cases empty : key = ""
      · rw [if_pos empty] at split
        rw [stageIn, split] at given
        dsimp only at given
        rw [named.value?_iff.mpr present] at given
        cases given
      · rw [if_neg empty] at split
        rw [stageIn_of_member named present found within split] at given
        rw [(Expansion.resolveOne_served whole key).answer, Foreach.stageIn, found]
        have entitled : template.name = group := named.named _ present
        exact ⟨given, (Foreach.stageOf_name given).trans (entitled ▸ rfl)⟩

theorem exists_announced (named : Named definitions)
    (settled : ∀ entry ∈ definitions, entry.2.Settled context.data context.style)
    (listed : namesIn definitions context = .ok names) {name : String} (member : name ∈ names) :
    ∃ outcome, Announced definitions context name outcome := by
  rcases (mem_namesIn_iff_mem named listed name).mp member with
    ⟨written, present⟩ | ⟨group, template, members, key, present, reached, within, rfl⟩
  · exact ⟨_, .entry present⟩
  · have whole : Expansion.Settled ⟨template, context, []⟩ := settled _ present
    have keyed := (Expansion.keyed_eq_ok_iff whole).mpr ⟨members, reached, rfl⟩
    exact ⟨_, .member present keyed within⟩

/-- Without marks, the document holds the announced names in their order, all different, each with
what its definition makes of it. -/
theorem fields_of_unmarked (unmarked : Unmarked definitions context)
    (named : Named definitions) (distinct : context.Distinct)
    (settled : ∀ entry ∈ definitions, entry.2.Settled context.data context.style)
    (listed : namesIn definitions context = .ok names) {stages : List Stage}
    (each : List.Forall₂ (fun name stage => stageIn definitions context name = .ok stage) names
      stages) :
    Entries.keys (Entries.ofList (stages.map Stage.entry)) = names ∧ names.Nodup ∧
      ∀ name value, (name, value) ∈ Entries.ofList (stages.map Stage.entry) →
        ∀ outcome, Announced definitions context name outcome →
          ∃ stage, outcome = .ok stage ∧ value = .dict stage.fields := by
  have single := unmarked.nodup named distinct listed
  have called : stages.map Stage.name = names := by
    have own : ∀ name ∈ names, ∀ stage, stageIn definitions context name = .ok stage →
        stage.name = name := by
      intro name member stage given
      obtain ⟨outcome, announced⟩ := exists_announced named settled listed member
      exact (announced.eq_ok unmarked named settled given).2
    clear single listed
    induction each with
    | nil => rfl
    | cons here _ ih =>
        rw [List.forall_mem_cons] at own
        rw [List.map_cons, own.1 _ here, ih own.2]
  have apart : (Entries.keys (stages.map Stage.entry)).Nodup := by
    rw [Stage.keys_map_entry, called]
    exact single
  rw [Entries.ofList_of_nodup apart, Stage.keys_map_entry]
  refine ⟨called, single, ?_⟩
  intro name value member outcome announced
  obtain ⟨stage, present, same⟩ := List.mem_map.mp member
  cases same
  rw [← called, List.forall₂_map_left_iff, List.forall₂_same] at each
  exact ⟨stage, (announced.eq_ok unmarked named settled (each stage present)).1, rfl⟩

/-- When all stages are resolved together, after any queries, the document holds the announced names
in their order, all different, each with the stage that the very definition announcing it gives, if
and only if no entry has an `@` in its name and no member has one in its key. -/
theorem resolve_faithful_iff {fs : FileSystem} {current : Option String} {wdir : String}
    {document : Value} {style : Style} {resolver : Resolver} {reads : List String}
    (built : ofDocument? fs current wdir document style = (.ok resolver, reads))
    (distinct : document.Distinct) (history : List Query) {resolved : Value}
    (given : (resolver.askAll history).resolve.1 = .ok resolved) :
    ∃ names fields, (resolver.askAll history).stageNames.1 = .ok names ∧
      resolved = .dict [(stagesSection, .dict fields)] ∧
      ((Entries.keys fields = names ∧ names.Nodup ∧
          ∀ name value, (name, value) ∈ fields → ∀ outcome,
            Announced resolver.definitions resolver.context name outcome →
              ∃ stage, outcome = .ok stage ∧ value = .dict stage.fields) ↔
        (∀ name written, (name, .entry written) ∈ resolver.definitions → '@' ∉ name.toList) ∧
        ∀ group template keyed, (group, .foreach template) ∈ resolver.definitions →
          (Expansion.keyed ⟨template, resolver.context, []⟩).1 = .ok keyed →
          ∀ key ∈ Entries.keys keyed, '@' ∉ key.toList) := by
  have fresh := fresh_ofDocument? built distinct
  have settled := fresh.settled
  have kept := askAll_kept settled history
  have named := fresh.isNamed
  rw [(resolve_served kept.settled).answer, kept.documentIn] at given
  obtain ⟨names, stages, listed, each, rfl⟩ := documentIn_eq_ok_iff.mp given
  refine ⟨names, Entries.ofList (stages.map Stage.entry), ?_, rfl, ?_, ?_⟩
  · rw [(stageNames_served kept.settled).answer, kept.namesIn, listed]
  · rintro ⟨same, single, -⟩
    have unmarked := unmarked_of_own_names named listed single (own_names each same)
    refine ⟨unmarked.entries, ?_⟩
    intro group template keyed present reached
    have whole : Expansion.Settled ⟨template, resolver.context, []⟩ := settled.members _ present
    obtain ⟨members, found, rfl⟩ := (Expansion.keyed_eq_ok_iff whole).mp reached
    exact unmarked.members group template members present found
  · rintro ⟨entries, members⟩
    have unmarked : Unmarked resolver.definitions resolver.context := by
      refine ⟨entries, ?_⟩
      intro group template known present found
      have whole : Expansion.Settled ⟨template, resolver.context, []⟩ := settled.members _ present
      exact members group template _ present
        ((Expansion.keyed_eq_ok_iff whole).mpr ⟨known, found, rfl⟩)
    exact fields_of_unmarked unmarked named fresh.idle.distinct settled.members listed each

def regionsResolved : Value :=
  .dict [("stages", .dict [
    ("build", .dict [("cmd", .string "make")]), ("train@us", .dict [("cmd", .string "run us")]),
    ("train@gb", .dict [("cmd", .string "run gb")])])]

theorem regions_faithful :
    ∃ names fields, (regionsResolver.askAll [.resolveOne "train@gb"]).stageNames.1 = .ok names ∧
      regionsResolved = .dict [(stagesSection, .dict fields)] ∧
      Entries.keys fields = names ∧ names.Nodup := by
  have done : (regionsResolver.askAll [.resolveOne "train@gb"]).resolve.1 =
      .ok regionsResolved := by cbv
  obtain ⟨names, fields, listed, same, faithful⟩ :=
    resolve_faithful_iff regions_built (by decide) [.resolveOne "train@gb"] done
  have kept := faithful.mpr (by
    constructor
    · intro name written present
      rw [regions_entry present]
      decide
    · intro group template keyed present reached
      obtain ⟨same, there, keys⟩ := regions_members present
      cases reached.symm.trans there
      rw [keys]
      decide)
  exact ⟨names, fields, listed, same, kept.1, kept.2.1⟩

/-- A document in which one name is the other with the mark of members behind it. -/
def marked : Value :=
  .dict [("stages", .dict [
    ("build", .dict [("cmd", .string "one")]), ("build@", .dict [("cmd", .string "two")])])]

def markedResolver : Resolver where
  wdir := ""
  path := documentFile
  context := {}
  definitions := [
    ("build", .entry { name := "build", fields := [("cmd", .string "one")], path := documentFile }),
    ("build@", .entry { name := "build@", fields := [("cmd", .string "two")],
                        path := documentFile })]

theorem marked_built : ofDocument? noFiles (some "/") "" marked {} = (.ok markedResolver, []) := by
  rw [ofDocument?, documentPath]
  rfl

/-- An announced stage may be lost. -/
theorem not_resolve_keeps_names :
    ¬ ∀ (fs : FileSystem) (current : Option String) (wdir : String) (document : Value)
        (style : Style) (resolver : Resolver) (reads names : List String) (fields : Entries Value),
      ofDocument? fs current wdir document style = (.ok resolver, reads) → document.Distinct →
      resolver.stageNames.1 = .ok names →
      resolver.resolve.1 = .ok (.dict [(stagesSection, .dict fields)]) →
      Entries.keys fields = names := by
  intro claimed
  have kept := claimed noFiles (some "/") "" marked {} markedResolver [] ["build", "build@"]
    [("build", .dict [("cmd", .string "one")])] marked_built (by decide) rfl (by cbv)
  cases kept

end Resolver

end StageTemplates
