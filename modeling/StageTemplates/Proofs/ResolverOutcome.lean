import StageTemplates.Proofs.DocumentStages

set_option autoImplicit false

/-!
What a resolver answers is what its definitions and variables give. Whatever it is asked, it keeps
its variables, and of its definitions all but what templates keep for later.
-/
namespace StageTemplates

namespace Expansion

/-- Resolves the stage of a member, if there is such a member; else the whole name is unknown. -/
def resolveNamed (key name : String) (state : Expansion) :
    Except StageError Stage × Expansion :=
  match state.hasMember key with
  | (.error error, state) => (.error (.resolve error), state)
  | (.ok false, state) => (.error (.notFound (.stage name)), state)
  | (.ok true, state) => state.resolveOne key

variable {state : Expansion}

theorem resolveNamed_served (settled : state.Settled) (key name : String) :
    Served state (state.resolveNamed key name)
      (state.template.namedIn state.context.data state.context.style key name) := by
  obtain ⟨answer, looked⟩ := hasMember_served settled key
  rw [resolveNamed, Foreach.namedIn]
  generalize state.hasMember key = result at answer looked
  cases members : state.template.membersIn state.context.data state.context.style with
  | error error =>
      rw [members] at answer
      obtain ⟨known, after⟩ := result
      cases answer
      exact ⟨rfl, looked⟩
  | ok found =>
      rw [members] at answer
      obtain ⟨known, after⟩ := result
      cases answer
      dsimp only at looked ⊢
      cases Entries.has key (Foreach.keyed found) with
      | false => exact ⟨rfl, looked⟩
      | true =>
          obtain ⟨stage, again⟩ := resolveOne_served looked.kept.settled key
          rw [looked.kept.stageIn, Foreach.stageIn, members] at stage
          exact ⟨stage, looked.trans again⟩

end Expansion

namespace Resolver

/-- A resolver between two calls: nothing is being recorded, no name stands twice, and what
templates keep is what it was made from. -/
structure Settled (resolver : Resolver) : Prop where
  untracked : resolver.context.tracked = none
  distinct : (Entries.keys resolver.definitions).Nodup
  members : ∀ entry ∈ resolver.definitions,
    entry.2.Settled resolver.context.data resolver.context.style

/-- What calls leave alone. -/
structure Kept (before after : Resolver) : Prop where
  context : after.context = before.context
  definitions : unusedOf after.definitions = unusedOf before.definitions
  settled : after.Settled

theorem Kept.refl {resolver : Resolver} (settled : resolver.Settled) : Kept resolver resolver :=
  ⟨rfl, rfl, settled⟩

theorem Kept.trans {first second third : Resolver} (one : Kept first second)
    (two : Kept second third) : Kept first third :=
  ⟨two.context.trans one.context, two.definitions.trans one.definitions, two.settled⟩

theorem Kept.track {before after : Resolver} (kept : Kept before after) (name : String)
    (tracked : Tracked) : Kept before (after.track name tracked) :=
  ⟨kept.context, kept.definitions, ⟨kept.settled.untracked, kept.settled.distinct,
    kept.settled.members⟩⟩

variable {resolver : Resolver} {α : Type}

/-- What a call gives, what it keeps, and the stages whose records it leaves. -/
structure Served (resolver : Resolver) (result : α × Resolver) (answer : α)
    (resolved : List Stage) : Prop where
  answer : result.1 = answer
  kept : Kept resolver result.2
  tracked : result.2.tracked = Entries.putAll resolver.tracked (resolved.map Stage.record)

theorem Settled.served (settled : resolver.Settled) (answer : α) :
    Served resolver (answer, resolver) answer [] := ⟨rfl, Kept.refl settled, rfl⟩

theorem Served.map {β : Type} {result : α × Resolver} {answer : α} {resolved : List Stage}
    (served : Served resolver result answer resolved) (f : α → β) :
    Served resolver (f result.1, result.2) (f answer) resolved :=
  ⟨congrArg f served.answer, served.kept, served.tracked⟩

/-- A definition found in a settled resolver. -/
theorem Settled.found (settled : resolver.Settled) {group : String} {definition : Definition}
    (found : Entries.value? group resolver.definitions = some definition) :
    definition.Settled resolver.context.data resolver.context.style :=
  settled.members (group, definition) (Entries.mem_of_value? found)

/-- Using a template keeps the variables, and the definitions but for what templates keep. -/
theorem expand_served (settled : resolver.Settled) {group : String} {template : Foreach}
    (known : Entries.value? group (unusedOf resolver.definitions) =
      some (.foreach template.unused))
    {use : Expansion → α × Expansion} {answer : α}
    (served : Expansion.Served ⟨template, resolver.context, resolver.warnings⟩
      (use ⟨template, resolver.context, resolver.warnings⟩) answer) :
    Served resolver (resolver.expand group template use) answer [] := by
  have used := served.kept
  obtain ⟨reads, noted⟩ := used.context
  have context : (resolver.expand group template use).2.context = resolver.context := by
    show (use ⟨template, resolver.context, resolver.warnings⟩).2.context = resolver.context
    rw [noted]
    exact Context.recorded_of_untracked settled.untracked reads
  refine ⟨served.answer, ⟨context, ?_, ?_, ?_, ?_⟩, rfl⟩
  · simp only [expand, unusedOf_put, Definition.unused, used.template]
    exact Entries.put_of_value? known
  · rw [context]
    exact settled.untracked
  · exact Entries.nodup_keys_put settled.distinct group _
  · have later := used.settled
    unfold Expansion.Settled at later
    rw [used.data, used.style] at later
    rw [context]
    exact Entries.forall_put later settled.members

theorem resolveEntry_eq (resolver : Resolver) (entry : Entry) :
    resolver.resolveEntry entry =
      ((entry.checkedOutcome resolver.context.data resolver.context.style).mapError .resolve,
        resolver) := by
  rw [resolveEntry, Entry.resolve_eq]
  cases entry.checkedOutcome resolver.context.data resolver.context.style <;> rfl

theorem Served.recorded {result : Except StageError Stage × Resolver}
    {answer : Except StageError Stage} (served : Served resolver result answer []) (name : String) :
    Served resolver (Resolver.kept result) answer (succeeding (fun _ => answer) [name]) := by
  obtain ⟨outcome, left, tracked⟩ := served
  obtain ⟨error | stage, after⟩ := result
  · cases outcome
    exact ⟨rfl, left, tracked⟩
  · cases outcome
    refine ⟨rfl, left.track stage.name stage.tracked, ?_⟩
    show Entries.put stage.name stage.tracked after.tracked = _
    rw [tracked]
    rfl

theorem hasStage_served (settled : resolver.Settled) (name : String) :
    Served resolver (resolver.hasStage name)
      (hasIn resolver.definitions resolver.context name) [] := by
  unfold hasStage hasIn
  dsimp only
  rcases found : Entries.value? (splitName name).1 resolver.definitions with
    _ | ⟨entry | template⟩ <;> rcases (splitName name).2 with _ | key
  · exact settled.served _
  · exact settled.served _
  · exact settled.served _
  · exact settled.served _
  · exact settled.served _
  · have whole : Expansion.Settled ⟨template, resolver.context, resolver.warnings⟩ :=
      settled.found found
    exact expand_served settled (value?_unusedOf_of_found found)
      (Expansion.hasMember_served whole key)

theorem resolveOne_served (settled : resolver.Settled) (name : String) :
    Served resolver (resolver.resolveOne name)
      (stageIn resolver.definitions resolver.context name)
      (succeeding (stageIn resolver.definitions resolver.context) [name]) := by
  rw [succeeding, succeeding]
  unfold resolveOne stageIn
  dsimp only
  rcases found : Entries.value? (splitName name).1 resolver.definitions with
    _ | ⟨entry | template⟩ <;> rcases (splitName name).2 with _ | key
  · exact settled.served _
  · exact settled.served _
  · dsimp only
    rw [resolveEntry_eq]
    exact (settled.served _).recorded name
  · exact settled.served _
  · exact settled.served _
  · have whole : Expansion.Settled ⟨template, resolver.context, resolver.warnings⟩ :=
      settled.found found
    have used := expand_served settled (value?_unusedOf_of_found found)
      (Expansion.resolveNamed_served whole key name)
    exact used.recorded name

/-- Definitions of which a resolver has other copies at most in what these keep. -/
def Knows (resolver : Resolver) (definitions : Entries Definition) : Prop :=
  ∀ entry ∈ definitions,
    Entries.value? entry.1 (unusedOf resolver.definitions) = some entry.2.unused ∧
      entry.2.Settled resolver.context.data resolver.context.style

theorem Settled.knows (settled : resolver.Settled) : resolver.Knows resolver.definitions := by
  intro entry member
  exact ⟨value?_unusedOf_of_found (Entries.value?_of_mem settled.distinct member),
    settled.members entry member⟩

theorem Knows.kept {after : Resolver} {definitions : Entries Definition}
    (knows : resolver.Knows definitions) (kept : Kept resolver after) :
    after.Knows definitions := by
  intro entry member
  obtain ⟨found, whole⟩ := knows entry member
  rw [kept.definitions, kept.context]
  exact ⟨found, whole⟩

theorem namesOf_served (settled : resolver.Settled) {definitions : Entries Definition}
    (knows : resolver.Knows definitions) :
    Served resolver (namesOf definitions resolver) (namesIn definitions resolver.context) [] := by
  induction definitions generalizing resolver with
  | nil => exact settled.served _
  | cons entry rest ih =>
      obtain ⟨name, definition⟩ := entry
      obtain ⟨⟨found, whole⟩, others⟩ := List.forall_mem_cons.mp knows
      rw [namesIn_cons]
      cases definition with
      | entry written =>
          obtain ⟨outcome, kept, tracked⟩ := ih settled others
          rw [namesOf, Definition.namesIn, ← outcome]
          generalize namesOf rest resolver = result at kept tracked ⊢
          obtain ⟨error | names, after⟩ := result
          · exact ⟨rfl, kept, tracked⟩
          · exact ⟨rfl, kept, tracked⟩
      | foreach template =>
          -- The template is the one listed, which may keep less than the resolver's own.
          have state : Expansion.Settled ⟨template, resolver.context, resolver.warnings⟩ := whole
          have used := expand_served settled found (Expansion.stageNames_served state)
          rw [namesOf]
          generalize resolver.expand name template Expansion.stageNames = result at used ⊢
          obtain ⟨outcome, kept, tracked⟩ := used
          obtain ⟨error | first, after⟩ := result
          · rw [Definition.namesIn, ← outcome]
            exact ⟨rfl, kept, tracked⟩
          · have later := ih kept.settled (Knows.kept others kept)
            rw [kept.context] at later
            rw [Definition.namesIn, ← outcome, ← later.answer]
            dsimp only at kept tracked ⊢
            generalize namesOf rest after = result at later ⊢
            obtain ⟨-, still, records⟩ := later
            rw [tracked] at records
            obtain ⟨error | names, last⟩ := result
            · exact ⟨rfl, kept.trans still, records⟩
            · exact ⟨rfl, kept.trans still, records⟩

theorem stageNames_served (settled : resolver.Settled) :
    Served resolver resolver.stageNames (namesIn resolver.definitions resolver.context) [] :=
  namesOf_served settled settled.knows

/-- After calls the same stage stands under a name. -/
theorem Kept.stageIn {before after : Resolver} (kept : Kept before after) (name : String) :
    Resolver.stageIn after.definitions after.context name =
      Resolver.stageIn before.definitions before.context name := by
  rw [← stageIn_unusedOf, kept.definitions, kept.context, stageIn_unusedOf]

theorem Kept.hasIn {before after : Resolver} (kept : Kept before after) (name : String) :
    Resolver.hasIn after.definitions after.context name =
      Resolver.hasIn before.definitions before.context name := by
  rw [← hasIn_unusedOf, kept.definitions, kept.context, hasIn_unusedOf]

theorem Kept.namesIn {before after : Resolver} (kept : Kept before after) :
    Resolver.namesIn after.definitions after.context =
      Resolver.namesIn before.definitions before.context := by
  rw [← namesIn_unusedOf, kept.definitions, kept.context, namesIn_unusedOf]

theorem resolveEach_eq_inTurn (names : List String) (done : Entries Value)
    (resolver : Resolver) :
    resolveEach names done resolver = Stage.inTurn resolveOne names done resolver := by
  induction names generalizing done resolver with
  | nil => rfl
  | cons name rest ih =>
      rw [resolveEach, Stage.inTurn]
      rcases resolver.resolveOne name with ⟨error | stage, after⟩
      · rfl
      · exact ih _ after

theorem resolve_served (settled : resolver.Settled) :
    Served resolver resolver.resolve (documentIn resolver.definitions resolver.context)
      (stagesIn resolver.definitions resolver.context) := by
  obtain ⟨names, kept, tracked⟩ := stageNames_served settled
  rw [resolve, documentIn, stagesIn, ← names]
  generalize resolver.stageNames = result at kept tracked ⊢
  obtain ⟨error | names, after⟩ := result
  · exact ⟨rfl, kept, tracked⟩
  · dsimp only at kept tracked ⊢
    rw [resolveEach_eq_inTurn]
    have one : ∀ (later : Resolver) (name : String), Kept resolver later →
        Served later (later.resolveOne name)
          (stageIn resolver.definitions resolver.context name)
          (succeeding (stageIn resolver.definitions resolver.context) [name]) := by
      intro later name holds
      rw [← funext holds.stageIn]
      exact resolveOne_served holds.settled name
    have step : ∀ (later : Resolver) (name : String), Kept resolver later →
        Kept resolver (later.resolveOne name).2 := by
      intro later name holds
      exact holds.trans (one later name holds).kept
    have outcome := Stage.inTurn_outcome resolveOne
      (fun later name holds => (one later name holds).answer) step names [] kept
    have still := Stage.inTurn_kept resolveOne step names [] kept
    have records := Stage.inTurn_records resolveOne
      (fun later name holds => (one later name holds).answer) step
      (fun later name holds => (one later name holds).tracked) names [] kept
    rw [tracked] at records
    generalize names.mapM (stageIn resolver.definitions resolver.context) = stages at outcome ⊢
    generalize Stage.inTurn resolveOne names [] after = last at outcome still records ⊢
    obtain ⟨error | found, last⟩ := last
    · cases stages <;> cases outcome
      exact ⟨rfl, still, records⟩
    · cases stages <;> cases outcome
      exact ⟨rfl, still, records⟩

end Resolver

end StageTemplates
