import StageTemplates.Proofs.ResolverHistory

set_option autoImplicit false

/-!
What queries do to a resolver: they look at the members of groups, one group after the other, and
record stages. Which groups a query looks at does not depend on what was asked before.
-/
namespace StageTemplates

namespace Resolver

/-- The groups of which the members are looked at when the names of definitions are listed: all up
to the first of which they cannot be told. -/
def listedGroups (context : Context) : List (String × Definition) → List String
  | [] => []
  | (_, .entry _) :: rest => listedGroups context rest
  | (group, .foreach template) :: rest =>
      group ::
        match template.membersIn context.data context.style with
        | .ok _ => listedGroups context rest
        | .error _ => []

/-- The group of which the members are looked at for a name. -/
def namedGroup (definitions : Entries Definition) (name : String) : List String :=
  match Entries.value? (splitName name).1 definitions, (splitName name).2 with
  | some (.foreach _), some _ => [(splitName name).1]
  | _, _ => []

/-- The groups of which a query looks at the members. -/
def looksAt (resolver : Resolver) : Query → List String
  | .hasStage name => namedGroup resolver.definitions name
  | .resolveOne name => namedGroup resolver.definitions name
  | .stageNames => listedGroups resolver.context resolver.definitions
  | .resolve => listedGroups resolver.context resolver.definitions

/-- What becomes of a resolver when the members of a group are looked at: its template has them if
they can be told, and if it did not have them, there may be a warning. -/
structure Look (before : Resolver) (group : String) (template : Foreach) (after : Resolver) :
    Prop where
  kept : Kept before after
  members : ∃ now, Entries.value? group after.definitions = some (.foreach now) ∧
    now.members = (template.membersIn before.context.data before.context.style).toOption
  others : ∀ other, other ≠ group →
    Entries.value? other after.definitions = Entries.value? other before.definitions
  warnings : after.warnings = before.warnings ++
    if template.members.isSome then [] else template.due before.context

variable {resolver : Resolver} {α : Type}

/-- Whatever a template is used for, its members are looked at. -/
theorem expand_look (settled : resolver.Settled) {group : String} {template : Foreach}
    (found : Entries.value? group resolver.definitions = some (.foreach template))
    {use : Expansion → α × Expansion} {answer : α}
    (served : Expansion.Served ⟨template, resolver.context, resolver.warnings⟩
      (use ⟨template, resolver.context, resolver.warnings⟩) answer) :
    Look resolver group template (resolver.expand group template use).2 where
  kept := (expand_served settled (value?_unusedOf_of_found found) served).kept
  members := ⟨_, Entries.value?_put_self _ _ _, served.looked.members⟩
  others := fun _ different => Entries.value?_put_of_ne different _ _
  warnings := served.looked.warnings

/-- What a resolver does for a query: it looks at the members of groups, one after the other, and
records stages. -/
inductive Looks : Resolver → List String → Resolver → Prop
  | nothing (resolver : Resolver) : Looks resolver [] resolver
  | group {resolver middle after : Resolver} {group : String} {template : Foreach}
      {groups : List String}
      (found : Entries.value? group resolver.definitions = some (.foreach template))
      (look : Look resolver group template middle) (later : Looks middle groups after) :
      Looks resolver (group :: groups) after
  | record {resolver after : Resolver} {groups : List String} (name : String) (tracked : Tracked)
      (later : Looks (resolver.track name tracked) groups after) : Looks resolver groups after

namespace Looks

variable {after last : Resolver} {groups others : List String}

theorem append (one : Looks resolver groups after) (two : Looks after others last) :
    Looks resolver (groups ++ others) last := by
  induction one with
  | nothing resolver => exact two
  | group found look later ih => exact .group found look (ih two)
  | record name tracked later ih => exact .record name tracked (ih two)

theorem kept (looks : Looks resolver groups after) (settled : resolver.Settled) :
    Kept resolver after := by
  induction looks with
  | nothing resolver => exact Kept.refl settled
  | group found look later ih => exact look.kept.trans (ih look.kept.settled)
  | record name tracked later ih =>
      have here := (Kept.refl settled).track name tracked
      exact here.trans (ih here.settled)

/-- What is looked at is a group of the document. -/
theorem mem_groups (looks : Looks resolver groups after) (settled : resolver.Settled)
    {group : String} (member : group ∈ groups) :
    ∃ template, Entries.value? group resolver.definitions = some (.foreach template) := by
  induction looks with
  | nothing resolver => cases member
  | @group _ _ _ own _ _ found look later ih =>
      rcases List.mem_cons.mp member with rfl | among
      · exact ⟨_, found⟩
      · obtain ⟨template, there⟩ := ih look.kept.settled among
        by_cases same : group = own
        · exact ⟨_, same ▸ found⟩
        · rw [look.others group same] at there
          exact ⟨template, there⟩
  | record name tracked later ih =>
      exact ih ((Kept.refl settled).track name tracked).settled member

end Looks

theorem kept_looks {groups : List String} {result : Except StageError Stage × Resolver}
    (looks : Looks resolver groups result.2) :
    Looks resolver groups (Resolver.kept result).2 := by
  obtain ⟨error | stage, after⟩ := result
  · exact looks
  · have recorded := looks.append (.record stage.name stage.tracked (.nothing _))
    rwa [List.append_nil] at recorded

theorem hasStage_looks (settled : resolver.Settled) (name : String) :
    Looks resolver (namedGroup resolver.definitions name) (resolver.hasStage name).2 := by
  unfold hasStage namedGroup
  dsimp only
  rcases found : Entries.value? (splitName name).1 resolver.definitions with
    _ | ⟨entry | template⟩ <;> rcases (splitName name).2 with _ | key
  · exact .nothing _
  · exact .nothing _
  · exact .nothing _
  · exact .nothing _
  · exact .nothing _
  · have whole : Expansion.Settled ⟨template, resolver.context, resolver.warnings⟩ :=
      settled.found found
    have look : Look resolver (splitName name).1 template
        (resolver.expand (splitName name).1 template (·.hasMember key)).2 :=
      expand_look settled found (Expansion.hasMember_served whole key)
    exact .group found look (.nothing _)

theorem resolveOne_looks (settled : resolver.Settled) (name : String) :
    Looks resolver (namedGroup resolver.definitions name) (resolver.resolveOne name).2 := by
  unfold resolveOne namedGroup
  dsimp only
  rcases found : Entries.value? (splitName name).1 resolver.definitions with
    _ | ⟨entry | template⟩ <;> rcases (splitName name).2 with _ | key
  · exact .nothing _
  · exact .nothing _
  · apply kept_looks
    rw [resolveEntry_eq]
    exact .nothing _
  · exact .nothing _
  · exact .nothing _
  · have whole : Expansion.Settled ⟨template, resolver.context, resolver.warnings⟩ :=
      settled.found found
    have look := expand_look settled found (Expansion.resolveNamed_served whole key name)
    exact kept_looks (.group found look (.nothing _))

/-- Listing names looks at the groups in turn, up to one of which the members cannot be told. -/
theorem namesOf_looks (settled : resolver.Settled) {listed : Entries Definition}
    (distinct : (Entries.keys listed).Nodup)
    (own : ∀ entry ∈ listed, Entries.value? entry.1 resolver.definitions = some entry.2) :
    Looks resolver (listedGroups resolver.context listed) (namesOf listed resolver).2 := by
  induction listed generalizing resolver with
  | nil => exact .nothing _
  | cons entry rest ih =>
      obtain ⟨name, definition⟩ := entry
      rw [Entries.keys_cons, List.nodup_cons] at distinct
      obtain ⟨found, others⟩ := List.forall_mem_cons.mp own
      cases definition with
      | entry written =>
          have later := ih settled distinct.2 others
          rw [namesOf, listedGroups]
          generalize namesOf rest resolver = result at later ⊢
          obtain ⟨error | names, after⟩ := result
          · exact later
          · exact later
      | foreach template =>
          have whole : Expansion.Settled ⟨template, resolver.context, resolver.warnings⟩ :=
            settled.found found
          have served := Expansion.stageNames_served whole
          have look := expand_look settled found served
          have outcome : (resolver.expand name template Expansion.stageNames).1 = _ := served.answer
          rw [namesOf, listedGroups]
          generalize resolver.expand name template Expansion.stageNames = result at look outcome ⊢
          obtain ⟨names, middle⟩ := result
          dsimp only at look outcome
          cases told : template.membersIn resolver.context.data resolver.context.style with
          | error error =>
              rw [told] at outcome
              subst outcome
              exact .group found look (.nothing _)
          | ok members =>
              rw [told] at outcome
              subst outcome
              -- The look changed this group alone, so the rest is listed as the resolver has it.
              have still : ∀ entry ∈ rest,
                  Entries.value? entry.1 middle.definitions = some entry.2 := by
                intro entry member
                have different : entry.1 ≠ name := by
                  intro same
                  exact distinct.1 (same ▸ Entries.mem_keys_of_mem member)
                rw [look.others entry.1 different]
                exact others entry member
              have later := ih look.kept.settled distinct.2 still
              rw [look.kept.context] at later
              dsimp only [Except.map] at later ⊢
              generalize namesOf rest middle = result at later ⊢
              obtain ⟨error | names, after⟩ := result
              · exact .group found look later
              · exact .group found look later

theorem stageNames_looks (settled : resolver.Settled) :
    Looks resolver (listedGroups resolver.context resolver.definitions) resolver.stageNames.2 := by
  apply namesOf_looks settled settled.distinct
  intro entry member
  exact Entries.value?_of_mem settled.distinct member

theorem resolveEach_looks (settled : resolver.Settled) (names : List String)
    (done : Entries Value) :
    ∃ groups, Looks resolver groups (resolveEach names done resolver).2 := by
  induction names generalizing resolver done with
  | nil => exact ⟨[], .nothing _⟩
  | cons name rest ih =>
      have here := resolveOne_looks settled name
      have kept := here.kept settled
      rw [resolveEach]
      generalize resolver.resolveOne name = result at here kept ⊢
      obtain ⟨error | stage, after⟩ := result
      · exact ⟨_, here⟩
      · obtain ⟨groups, later⟩ := ih kept.settled (Entries.put stage.name (.dict stage.fields) done)
        exact ⟨_, here.append later⟩

/-- Where the names of all stages can be listed, all groups were looked at. -/
theorem mem_listedGroups {definitions : Entries Definition} {context : Context}
    {names : List String} (listed : namesIn definitions context = .ok names) {group : String}
    {template : Foreach} (member : (group, .foreach template) ∈ definitions) :
    group ∈ listedGroups context definitions := by
  induction definitions generalizing names with
  | nil => cases member
  | cons entry rest ih =>
      obtain ⟨name, definition⟩ := entry
      rw [namesIn_cons] at listed
      split at listed
      · cases listed
      · next first here =>
          obtain ⟨others, later, -⟩ := map_eq_ok_iff.mp listed
          cases definition with
          | entry written =>
              rcases List.mem_cons.mp member with same | among
              · cases same
              · exact ih later among
          | foreach template =>
              obtain ⟨members, given, -⟩ := map_eq_ok_iff.mp here
              rw [listedGroups, given]
              rcases List.mem_cons.mp member with same | among
              · cases same
                exact List.mem_cons_self
              · exact List.mem_cons_of_mem _ (ih later among)

/-- Resolving all stages looks at no group that listing their names does not look at. -/
theorem resolve_looks (settled : resolver.Settled) :
    ∃ groups, Looks resolver groups resolver.resolve.2 ∧
      ∀ group, group ∈ groups ↔ group ∈ listedGroups resolver.context resolver.definitions := by
  have listing := stageNames_looks settled
  have kept := listing.kept settled
  have outcome := (stageNames_served settled).answer
  rw [resolve]
  generalize resolver.stageNames = result at listing kept outcome ⊢
  obtain ⟨error | names, listed⟩ := result
  · exact ⟨_, listing, fun group => Iff.rfl⟩
  · obtain ⟨groups, later⟩ := resolveEach_looks kept.settled names []
    have all := listing.append later
    have among : ∀ group, group ∈ listedGroups resolver.context resolver.definitions ++ groups ↔
        group ∈ listedGroups resolver.context resolver.definitions := by
      intro group
      constructor
      · intro member
        obtain ⟨template, found⟩ := all.mem_groups settled member
        exact mem_listedGroups outcome.symm (Entries.mem_of_value? found)
      · exact List.mem_append_left _
    dsimp only at all ⊢
    generalize resolveEach names [] listed = last at all ⊢
    obtain ⟨error | stages, after⟩ := last
    · exact ⟨_, all, among⟩
    · exact ⟨_, all, among⟩

theorem ask_looks (settled : resolver.Settled) (query : Query) :
    ∃ groups, Looks resolver groups (resolver.ask query).2 ∧
      ∀ group, group ∈ groups ↔ group ∈ resolver.looksAt query := by
  cases query with
  | hasStage name => exact ⟨_, hasStage_looks settled name, fun group => Iff.rfl⟩
  | stageNames => exact ⟨_, stageNames_looks settled, fun group => Iff.rfl⟩
  | resolveOne name => exact ⟨_, resolveOne_looks settled name, fun group => Iff.rfl⟩
  | resolve => exact resolve_looks settled

theorem listedGroups_unusedOf (context : Context) (definitions : Entries Definition) :
    listedGroups context (unusedOf definitions) = listedGroups context definitions := by
  induction definitions with
  | nil => rfl
  | cons entry rest ih =>
      obtain ⟨name, entry | template⟩ := entry
      · exact ih
      · show _ :: _ = _ :: _
        rw [Foreach.membersIn_unused]
        exact congrArg (name :: ·) (by rw [← ih]; rfl)

theorem namedGroup_unusedOf (definitions : Entries Definition) (name : String) :
    namedGroup (unusedOf definitions) name = namedGroup definitions name := by
  unfold namedGroup
  rw [value?_unusedOf]
  rcases Entries.value? (splitName name).1 definitions with _ | ⟨entry | template⟩ <;>
    cases (splitName name).2 <;> rfl

/-- Whatever was asked before, a query looks at the same groups. -/
theorem Kept.looksAt {before after : Resolver} (kept : Kept before after) (query : Query) :
    after.looksAt query = before.looksAt query := by
  have named : ∀ name, namedGroup after.definitions name = namedGroup before.definitions name := by
    intro name
    rw [← namedGroup_unusedOf, kept.definitions, namedGroup_unusedOf]
  have listed : listedGroups after.context after.definitions =
      listedGroups before.context before.definitions := by
    rw [← listedGroups_unusedOf, kept.definitions, kept.context, listedGroups_unusedOf]
  cases query with
  | hasStage name => exact named name
  | stageNames => exact listed
  | resolveOne name => exact named name
  | resolve => exact listed

end Resolver

end StageTemplates
