import StageTemplates.Proofs.MemberStages
import StageTemplates.Proofs.ResolverHistory
import StageTemplates.Proofs.SplitName

set_option autoImplicit false

/-!
Which names a document announces, and which of them lead back to the definition that announces them.
-/
namespace StageTemplates

namespace Resolver

/-- Definitions that stand under their names, no name twice. -/
structure Named (definitions : Entries Definition) : Prop where
  distinct : (Entries.keys definitions).Nodup
  named : ∀ entry ∈ definitions, entry.2.name = entry.1

theorem Fresh.isNamed {resolver : Resolver} (fresh : resolver.Fresh) :
    Named resolver.definitions := ⟨fresh.distinct, fresh.named⟩

theorem Named.value?_iff {definitions : Entries Definition} (named : Named definitions)
    {name : String} {definition : Definition} :
    Entries.value? name definitions = some definition ↔ (name, definition) ∈ definitions :=
  ⟨Entries.mem_of_value?, Entries.value?_of_mem named.distinct⟩

variable {definitions : Entries Definition} {context : Context} {names : List String}

theorem Named.namesIn_foreach (named : Named definitions) {group : String} {template : Foreach}
    {members : Node} (present : (group, .foreach template) ∈ definitions)
    (reached : template.membersIn context.data context.style = .ok members) :
    Definition.namesIn context.data context.style (group, .foreach template) =
      .ok ((Entries.keys (Foreach.keyed members)).map (memberName group)) := by
  have entitled : template.name = group := named.named _ present
  rw [Definition.namesIn, reached, entitled]
  rfl

/-- Each announced name is announced by a definition. -/
theorem mem_namesIn_iff (listed : namesIn definitions context = .ok names) (name : String) :
    name ∈ names ↔ ∃ entry ∈ definitions, ∃ own,
      Definition.namesIn context.data context.style entry = .ok own ∧ name ∈ own := by
  obtain ⟨lists, each, rfl⟩ := map_eq_ok_iff.mp listed
  rw [mapM_eq_ok_iff] at each
  clear listed
  induction each with
  | nil => simp
  | cons here _ ih =>
      rw [List.flatten_cons, List.mem_append, ih]
      simp [here]

/-- If every definition can tell its names, all of them can be listed. -/
theorem exists_namesIn
    (each : ∀ entry ∈ definitions, ∃ own,
      Definition.namesIn context.data context.style entry = .ok own) :
    ∃ names, namesIn definitions context = .ok names := by
  cases listed : definitions.mapM (Definition.namesIn context.data context.style) with
  | ok lists =>
      refine ⟨lists.flatten, ?_⟩
      rw [namesIn, listed]
      rfl
  | error error =>
      obtain ⟨before, entry, after, rfl, -, failed⟩ := mapM_eq_error_iff.mp listed
      obtain ⟨own, given⟩ := each entry (by simp)
      rw [given] at failed
      cases failed

/-- Names that lead back to the definition that announces them are all different. -/
theorem nodup_namesIn (distinct : (Entries.keys definitions).Nodup)
    (listed : namesIn definitions context = .ok names)
    (back : ∀ entry ∈ definitions, ∀ own,
      Definition.namesIn context.data context.style entry = .ok own →
        own.Nodup ∧ ∀ name ∈ own, (splitName name).1 = entry.1) : names.Nodup := by
  induction definitions generalizing names with
  | nil =>
      cases listed
      exact List.nodup_nil
  | cons entry rest ih =>
      obtain ⟨key, definition⟩ := entry
      rw [Entries.keys_cons, List.nodup_cons] at distinct
      obtain ⟨here, later⟩ := List.forall_mem_cons.mp back
      rw [namesIn_cons] at listed
      split at listed
      · cases listed
      · next own given =>
          obtain ⟨others, left, rfl⟩ := map_eq_ok_iff.mp listed
          obtain ⟨single, mine⟩ := here own given
          rw [List.nodup_append]
          refine ⟨single, ih distinct.2 left later, ?_⟩
          intro name member other there same
          subst same
          obtain ⟨entry, present, theirs, given, within⟩ := (mem_namesIn_iff left name).mp there
          have owner := (later entry present theirs given).2 name within
          rw [mine name member] at owner
          dsimp only at owner
          exact distinct.1 (owner ▸ Entries.mem_keys_of_mem present)

/-- The announced names are those of entries, and those of groups with the keys of their members. -/
theorem mem_namesIn_iff_mem (named : Named definitions)
    (listed : namesIn definitions context = .ok names) (name : String) :
    name ∈ names ↔
      (∃ written, (name, .entry written) ∈ definitions) ∨
      ∃ group template members key, (group, .foreach template) ∈ definitions ∧
        template.membersIn context.data context.style = .ok members ∧
        key ∈ Entries.keys (Foreach.keyed members) ∧ name = memberName group key := by
  rw [mem_namesIn_iff listed]
  constructor
  · rintro ⟨⟨group, written | template⟩, present, own, given, member⟩
    · cases given
      rw [List.mem_singleton] at member
      exact Or.inl ⟨written, member ▸ present⟩
    · obtain ⟨members, reached, rfl⟩ := map_eq_ok_iff.mp given
      obtain ⟨key, within, rfl⟩ := List.mem_map.mp member
      have same : template.name = group := named.named _ present
      exact Or.inr ⟨group, template, members, key, present, reached, within, same ▸ rfl⟩
  · rintro (⟨written, present⟩ | ⟨group, template, members, key, present, reached, within, rfl⟩)
    · exact ⟨_, present, [name], rfl, by simp⟩
    · exact ⟨_, present, _, named.namesIn_foreach present reached, List.mem_map_of_mem within⟩

/-- There is a stage under the name of an entry, and under the name of a group with the key of one
of its members. -/
theorem hasIn_eq_true_iff (named : Named definitions) (name : String) :
    hasIn definitions context name = .ok true ↔
      (∃ group written, (group, .entry written) ∈ definitions ∧
        splitName name = (group, none)) ∨
      ∃ group template members key, (group, .foreach template) ∈ definitions ∧
        template.membersIn context.data context.style = .ok members ∧
        key ∈ Entries.keys (Foreach.keyed members) ∧ splitName name = (group, some key) := by
  rw [hasIn]
  rcases splitName name with ⟨group, key⟩
  constructor
  · intro known
    dsimp only at known
    split at known
    · next written found =>
        exact Or.inl ⟨group, written, named.value?_iff.mp found, rfl⟩
    · next template key found =>
        obtain ⟨members, reached, present⟩ := map_eq_ok_iff.mp known
        exact Or.inr ⟨group, template, members, key, named.value?_iff.mp found, reached,
          (Entries.has_eq_true_iff _ _).mp present, rfl⟩
    · cases known
  · rintro (⟨_, written, present, same⟩ | ⟨_, template, members, _, present, reached, within, same⟩)
    · cases same
      rw [named.value?_iff.mpr present]
    · cases same
      rw [named.value?_iff.mpr present]
      dsimp only
      rw [reached, Except.map, (Entries.has_eq_true_iff _ _).mpr within]

/-- No entry has the mark of members in its name, and no member has it in its key. -/
structure Unmarked (definitions : Entries Definition) (context : Context) : Prop where
  entries : ∀ name written, (name, .entry written) ∈ definitions → '@' ∉ name.toList
  members : ∀ group template members, (group, .foreach template) ∈ definitions →
    template.membersIn context.data context.style = .ok members →
    ∀ key ∈ Entries.keys (Foreach.keyed members), '@' ∉ key.toList

theorem Unmarked.nodup (unmarked : Unmarked definitions context) (named : Named definitions)
    (distinct : context.Distinct) (listed : namesIn definitions context = .ok names) :
    names.Nodup := by
  refine nodup_namesIn named.distinct listed ?_
  rintro ⟨group, written | template⟩ present own given
  · cases given
    refine ⟨List.nodup_singleton group, ?_⟩
    intro name member
    rw [List.mem_singleton] at member
    rw [member, splitName_of_not_mem (unmarked.entries group written present)]
  · obtain ⟨members, reached, rfl⟩ := map_eq_ok_iff.mp given
    have apart := Foreach.nodup_keys_keyed
      (Foreach.distinct_membersIn ((Context.distinct_iff context).mp distinct).2 reached)
    refine ⟨apart.map (memberName_injective template.name), ?_⟩
    intro name member
    obtain ⟨key, within, rfl⟩ := List.mem_map.mp member
    have plain := unmarked.members group template members present reached key within
    rw [splitName_memberName plain]
    exact named.named _ present

/-- No `@` in any name or key, no empty key, and every group can tell its members. -/
structure Plain (definitions : Entries Definition) (context : Context) : Prop where
  names : ∀ name ∈ Entries.keys definitions, '@' ∉ name.toList
  members : ∀ group template, (group, .foreach template) ∈ definitions →
    ∃ members, template.membersIn context.data context.style = .ok members ∧
      ∀ key ∈ Entries.keys (Foreach.keyed members), key ≠ "" ∧ '@' ∉ key.toList

namespace Plain

theorem unmarked (plain : Plain definitions context) : Unmarked definitions context := by
  refine ⟨fun name written present => plain.names name (Entries.mem_keys_of_mem present), ?_⟩
  intro group template members present given key within
  obtain ⟨same, found, keys⟩ := plain.members group template present
  cases given.symm.trans found
  exact (keys key within).2

theorem exists_namesIn (plain : Plain definitions context) (named : Named definitions) :
    ∃ names, namesIn definitions context = .ok names := by
  refine Resolver.exists_namesIn ?_
  rintro ⟨group, written | template⟩ present
  · exact ⟨[group], rfl⟩
  · obtain ⟨members, found, -⟩ := plain.members group template present
    exact ⟨_, named.namesIn_foreach present found⟩

theorem exists_hasIn (plain : Plain definitions context) (named : Named definitions)
    (name : String) : ∃ known, hasIn definitions context name = .ok known := by
  rw [hasIn]
  split
  · exact ⟨true, rfl⟩
  · next template key found _ =>
      obtain ⟨members, reached, -⟩ := plain.members _ template (named.value?_iff.mp found)
      rw [reached]
      exact ⟨_, rfl⟩
  · exact ⟨false, rfl⟩

/-- There is a stage under each announced name, and under the name of an entry with an `@`. -/
theorem hasIn_iff (plain : Plain definitions context) (named : Named definitions)
    (listed : namesIn definitions context = .ok names) (name : String) :
    hasIn definitions context name = .ok true ↔ name ∈ names ∨
      ∃ written entry, (written, .entry entry) ∈ definitions ∧ name = written ++ "@" := by
  rw [hasIn_eq_true_iff named, mem_namesIn_iff_mem named listed]
  constructor
  · rintro (⟨group, entry, present, split⟩ | ⟨group, template, members, key, present, reached,
      within, split⟩)
    · rcases splitName_eq_none_iff.mp split with ⟨rfl, -⟩ | marked
      · exact Or.inl (Or.inl ⟨entry, present⟩)
      · exact Or.inr ⟨group, entry, present, marked⟩
    · have whole := (splitName_eq_some_iff.mp split).1
      exact Or.inl (Or.inr ⟨group, template, members, key, present, reached, within, whole⟩)
  · rintro ((⟨entry, present⟩ | ⟨group, template, members, key, present, reached, within, rfl⟩) |
      ⟨written, entry, present, rfl⟩)
    · have whole := splitName_of_not_mem (plain.names name (Entries.mem_keys_of_mem present))
      exact Or.inl ⟨name, entry, present, whole⟩
    · obtain ⟨same, found, keys⟩ := plain.members group template present
      cases reached.symm.trans found
      have split : splitName (memberName group key) = (group, some key) :=
        splitName_eq_some_iff.mpr ⟨rfl, keys key within⟩
      exact Or.inr ⟨group, template, members, key, present, reached, within, split⟩
    · exact Or.inl ⟨written, entry, present, splitName_eq_none_iff.mpr (Or.inr rfl)⟩

end Plain

/-- If `@` stands in no stage name of the document, and each group can tell its members, whose keys
are not empty and have no `@` in them, then after any queries: the names of the stages are all
different; there is a stage under each of them, and under the name of an entry with an `@` behind
it, and under no other text; and under any other text a stage is not found. -/
theorem hasStage_iff_mem_stageNames {fs : FileSystem} {current : Option String} {wdir : String}
    {document : Value} {style : Style} {resolver : Resolver} {reads : List String}
    (built : ofDocument? fs current wdir document style = (.ok resolver, reads))
    (distinct : document.Distinct)
    (plain : ∀ name ∈ Entries.keys resolver.definitions, '@' ∉ name.toList)
    (members : ∀ group template, (group, .foreach template) ∈ resolver.definitions →
      ∃ keyed, (Expansion.keyed ⟨template, resolver.context, []⟩).1 = .ok keyed ∧
        ∀ key ∈ Entries.keys keyed, key ≠ "" ∧ '@' ∉ key.toList)
    (history : List Query) :
    let used := resolver.askAll history
    ∃ names, used.stageNames.1 = .ok names ∧ names.Nodup ∧ ∀ name,
      ((used.hasStage name).1 = .ok true ↔ name ∈ names ∨
        ∃ written entry, (written, .entry entry) ∈ resolver.definitions ∧
          name = written ++ "@") ∧
      ((∃ missing, (used.resolveOne name).1 = .error (.notFound missing)) ↔ ¬ (name ∈ names ∨
        ∃ written entry, (written, .entry entry) ∈ resolver.definitions ∧
          name = written ++ "@")) := by
  intro used
  have fresh := fresh_ofDocument? built distinct
  have settled := fresh.settled
  have kept := askAll_kept settled history
  have named := fresh.isNamed
  have regular : Plain resolver.definitions resolver.context := by
    refine ⟨plain, ?_⟩
    intro group template present
    obtain ⟨keyed, given, keys⟩ := members group template present
    have whole : Expansion.Settled ⟨template, resolver.context, []⟩ := settled.members _ present
    obtain ⟨members, reached, rfl⟩ := (Expansion.keyed_eq_ok_iff whole).mp given
    exact ⟨members, reached, keys⟩
  obtain ⟨names, listed⟩ := regular.exists_namesIn named
  refine ⟨names, ?_, regular.unmarked.nodup named fresh.idle.distinct listed, ?_⟩
  · rw [(stageNames_served kept.settled).answer, kept.namesIn, listed]
  · intro name
    obtain ⟨known, answer⟩ := regular.exists_hasIn named name
    rw [(hasStage_served kept.settled name).answer, kept.hasIn,
      (resolveOne_served kept.settled name).answer, kept.stageIn, stageIn_notFound_iff,
      ← regular.hasIn_iff named listed, answer]
    cases known <;> simp

/-- A document with an entry and a group of two members. -/
def regions : Value :=
  .dict [("stages", .dict [
    ("build", .dict [("cmd", .string "make")]),
    ("train", .dict [("foreach", .list [.string "us", .string "gb"]),
      ("do", .dict [("cmd", .string "run ${item}")])])])]

def regionsResolver : Resolver where
  wdir := ""
  path := documentFile
  context := {}
  definitions := [
    ("build", .entry { name := "build", fields := [("cmd", .string "make")],
                       path := documentFile }),
    ("train", .foreach { name := "train", iterable := .list [.string "us", .string "gb"],
                         body := [("cmd", .string "run ${item}")], path := documentFile })]

theorem regions_built :
    ofDocument? noFiles (some "/") "" regions {} = (.ok regionsResolver, []) := by
  rw [ofDocument?, documentPath]
  rfl

theorem regions_entry {name : String} {written : Entry}
    (present : (name, .entry written) ∈ regionsResolver.definitions) : name = "build" := by
  simp only [regionsResolver, List.mem_cons, List.not_mem_nil, or_false, Prod.mk.injEq,
    reduceCtorEq, and_false, or_false] at present
  exact present.1

theorem regions_members {group : String} {template : Foreach}
    (present : (group, .foreach template) ∈ regionsResolver.definitions) :
    ∃ keyed, (Expansion.keyed ⟨template, regionsResolver.context, []⟩).1 = .ok keyed ∧
      Entries.keys keyed = ["us", "gb"] := by
  simp only [regionsResolver, List.mem_cons, List.not_mem_nil, or_false, Prod.mk.injEq,
    reduceCtorEq, and_false, false_or] at present
  obtain ⟨-, same⟩ := present
  cases same
  exact ⟨_, rfl, rfl⟩

theorem regions_hasStage :
    ∃ names, (regionsResolver.askAll [.resolve, .resolveOne "train@fr"]).stageNames.1 = .ok names ∧
      names.Nodup ∧ ∀ name,
        ((regionsResolver.askAll [.resolve, .resolveOne "train@fr"]).hasStage name).1 = .ok true ↔
          name ∈ names ∨ ∃ written entry,
            (written, .entry entry) ∈ regionsResolver.definitions ∧ name = written ++ "@" := by
  obtain ⟨names, listed, single, known⟩ := hasStage_iff_mem_stageNames regions_built (by decide)
    (by decide) (by
      intro group template present
      obtain ⟨keyed, reached, keys⟩ := regions_members present
      refine ⟨keyed, reached, ?_⟩
      rw [keys]
      decide)
    [.resolve, .resolveOne "train@fr"]
  exact ⟨names, listed, single, fun name => (known name).1⟩

/-- A document with one entry. -/
def single : Value := .dict [("stages", .dict [("build", .dict [])])]

def singleResolver : Resolver where
  wdir := ""
  path := documentFile
  context := {}
  definitions := [("build", .entry { name := "build", fields := [], path := documentFile })]

theorem single_built : ofDocument? noFiles (some "/") "" single {} = (.ok singleResolver, []) := by
  rw [ofDocument?, documentPath]
  rfl

/-- A name that is not announced may lead to a stage. -/
theorem not_hasStage_iff_mem :
    ¬ ∀ (fs : FileSystem) (current : Option String) (wdir : String) (document : Value)
        (style : Style) (resolver : Resolver) (reads names : List String),
      ofDocument? fs current wdir document style = (.ok resolver, reads) → document.Distinct →
      (∀ name ∈ Entries.keys resolver.definitions, '@' ∉ name.toList) →
      (∀ group template, (group, .foreach template) ∈ resolver.definitions →
        ∃ keyed, (Expansion.keyed ⟨template, resolver.context, []⟩).1 = .ok keyed ∧
          ∀ key ∈ Entries.keys keyed, key ≠ "" ∧ '@' ∉ key.toList) →
      resolver.stageNames.1 = .ok names →
      ∀ name, (resolver.hasStage name).1 = .ok true ↔ name ∈ names := by
  intro claimed
  have known := claimed noFiles (some "/") "" single {} singleResolver [] ["build"] single_built
    (by decide) (by decide) (by simp [singleResolver]) rfl "build@"
  have there : (singleResolver.hasStage "build@").1 = .ok true := by cbv
  have member := known.mp there
  simp at member

end Resolver

end StageTemplates
