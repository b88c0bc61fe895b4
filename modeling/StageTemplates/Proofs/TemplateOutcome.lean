import StageTemplates.Proofs.Bindings
import StageTemplates.Proofs.EntryOutcome
import StageTemplates.Proofs.InTurn
import StageTemplates.Stage.Foreach

set_option autoImplicit false

/-!
What the operations of a template give, as functions of the variables and the style. What a
template keeps is what it was worked out from, and no operation changes the variables.
-/
namespace StageTemplates

namespace Foreach

/-- The template as before any use. -/
def unused (template : Foreach) : Foreach :=
  { template with members := none, keyedMembers := none, bodyChecked := false }

variable (template : Foreach) (data : Entries Node) (style : Style)

/-- What the template runs over, as the variables give it. -/
def membersIn : Except ResolveError Node :=
  match ((⟨data, style, none, false⟩ : Scope).resolveNode template.iterable).outcome with
  | .error error => .error (template.iterableError (.context error))
  | .ok members =>
      if members.isContainer then .ok members
      else .error (template.iterableError (.notIterable members.kind))

/-- The stage of the member under a key, given what the template runs over. -/
def stageOf (members : Node) (key : String) : Except StageError Stage :=
  match Entries.value? key (keyed members) with
  | none => .error (.notFound (.member key template.name))
  | some member =>
      match template.bodyFault? with
      | some error => .error (.resolve error)
      | none =>
          let data := Entries.putAll data (bindings members key member)
          ((template.entry key).outcome data style true).mapError .resolve

/-- The stage of the member under a key. -/
def stageIn (key : String) : Except StageError Stage :=
  match template.membersIn data style with
  | .error error => .error (.resolve error)
  | .ok members => template.stageOf data style members key

/-- The template once its members were looked at. -/
def looked (context : Context) : Foreach :=
  { template with members := (template.membersIn context.data context.style).toOption }

/-- The warnings due when the members of a template are looked at for the first time. -/
def due (context : Context) : List Shadowing :=
  ((template.membersIn context.data context.style).toOption.bind
    (template.shadowing? context)).toList

section Look

variable {template : Foreach} {context : Context}

theorem looked_of_ok {members : Node}
    (found : template.membersIn context.data context.style = .ok members) :
    template.looked context = { template with members := some members } := by
  rw [looked, found]
  rfl

theorem looked_of_error {error : ResolveError}
    (failed : template.membersIn context.data context.style = .error error)
    (unknown : template.members = none) : template.looked context = template := by
  rw [looked, failed]
  show { template with members := none } = template
  rw [← unknown]

theorem due_of_ok {members : Node}
    (found : template.membersIn context.data context.style = .ok members) :
    template.due context = (template.shadowing? context members).toList := by
  rw [due, found]
  rfl

theorem due_of_error {error : ResolveError}
    (failed : template.membersIn context.data context.style = .error error) :
    template.due context = [] := by
  rw [due, failed]
  rfl

end Look

/-- After a look at the members nothing is due any more: they are known, or they cannot be told. -/
theorem nothing_due {template : Foreach} {context : Context} {known : Option Node}
    (looked : known = (template.membersIn context.data context.style).toOption) :
    (if known.isSome then [] else template.due context) = [] := by
  rw [looked, due]
  cases template.membersIn context.data context.style <;> rfl

/-- What is kept is what it was made from: the members are those that the variables give, the keyed
ones are these under their keys, and a body that was checked has no fault. -/
structure Settled : Prop where
  members : ∀ members, template.members = some members → template.membersIn data style = .ok members
  keyed : ∀ entries, template.keyedMembers = some entries →
    template.members.map Foreach.keyed = some entries
  body : template.bodyChecked = true → template.bodyFault? = none

theorem membersIn_unused : template.unused.membersIn data style = template.membersIn data style :=
  rfl

theorem stageIn_unused (key : String) :
    template.unused.stageIn data style key = template.stageIn data style key := rfl

theorem stageOf_unused (members : Node) (key : String) :
    template.unused.stageOf data style members key = template.stageOf data style members key := rfl

theorem due_unused (context : Context) : template.unused.due context = template.due context := rfl

theorem settled_unused : template.unused.Settled data style := ⟨nofun, nofun, nofun⟩

theorem Settled.looked {template : Foreach} {context : Context}
    (settled : template.Settled context.data context.style) :
    (template.looked context).Settled context.data context.style := by
  refine ⟨?_, ?_, settled.body⟩
  · intro members known
    cases given : template.membersIn context.data context.style with
    | error error =>
        rw [Foreach.looked, given] at known
        cases known
    | ok found =>
        rw [looked_of_ok given] at known
        cases known
        exact given
  · intro entries known
    have own := settled.keyed entries known
    obtain ⟨members, held, rfl⟩ := Option.map_eq_some_iff.mp own
    rw [looked_of_ok (settled.members members held)]
    rfl

theorem checkedBody_of_sound {template : Foreach} (sound : template.bodyFault? = none) :
    template.checkedBody = .ok template.body := by
  rw [checkedBody, sound]

theorem sound_of_checkedBody {template : Foreach} {body : Entries Value}
    (given : template.checkedBody = .ok body) : template.bodyFault? = none := by
  unfold checkedBody at given
  split at given
  · cases given
  · next sound => exact sound

theorem nodup_keys_bindings (members : Node) (key : String) (member : Node) :
    (Entries.keys (bindings members key member)).Nodup := by
  unfold bindings
  split
  · have different : itemName ≠ keyName := by decide
    simpa using different
  · simp

theorem ok_of_mapError_ok {outcome : Except ResolveError Stage} {stage : Stage}
    (given : outcome.mapError StageError.resolve = .ok stage) : outcome = .ok stage := by
  cases outcome with
  | error error => cases given
  | ok resolved =>
      cases given
      rfl

/-- The stage of a member is that of the entry, with the member bound. -/
theorem stageOf_eq_ok {template : Foreach} {data : Entries Node} {style : Style} {members : Node}
    {key : String} {stage : Stage} (given : template.stageOf data style members key = .ok stage) :
    ∃ member, Entries.value? key (keyed members) = some member ∧
      (template.entry key).outcome (Entries.putAll data (bindings members key member)) style true =
        .ok stage := by
  unfold stageOf at given
  split at given
  · cases given
  · next member found =>
      split at given
      · cases given
      · exact ⟨member, found, ok_of_mapError_ok given⟩

theorem stageOf_name {template : Foreach} {data : Entries Node} {style : Style} {members : Node}
    {key : String} {stage : Stage} (given : template.stageOf data style members key = .ok stage) :
    stage.name = memberName template.name key := by
  obtain ⟨member, -, resolved⟩ := stageOf_eq_ok given
  exact Entry.outcome_name resolved

/-- A member that is there is not missing. -/
theorem stageOf_ne_notFound {template : Foreach} {members : Node} {key : String}
    (present : Entries.has key (keyed members) = true) (data : Entries Node) (style : Style)
    (missing : NotFound) :
    template.stageOf data style members key ≠ .error (.notFound missing) := by
  intro failed
  obtain ⟨member, found⟩ := Option.isSome_iff_exists.mp present
  rw [stageOf, found] at failed
  dsimp only at failed
  split at failed
  · cases failed
  · cases outcome : (template.entry key).outcome
        (Entries.putAll data (bindings members key member)) style true <;>
      rw [outcome] at failed <;> cases failed

theorem stageIn_name {template : Foreach} {data : Entries Node} {style : Style} {key : String}
    {stage : Stage} (given : template.stageIn data style key = .ok stage) :
    stage.name = memberName template.name key := by
  unfold stageIn at given
  split at given
  · cases given
  · exact stageOf_name given

end Foreach

namespace Expansion

def Settled (state : Expansion) : Prop :=
  state.template.Settled state.context.data state.context.style

/-- A use of a template: it keeps what it resolved, and reads are noted. -/
structure Kept (before after : Expansion) : Prop where
  template : after.template.unused = before.template.unused
  context : ∃ reads, after.context = before.context.recorded reads
  settled : after.Settled

theorem Kept.refl {state : Expansion} (settled : state.Settled) : Kept state state :=
  ⟨rfl, ⟨[], (Context.recorded_nil state.context).symm⟩, settled⟩

theorem Kept.trans {first second third : Expansion} (one : Kept first second)
    (two : Kept second third) : Kept first third := by
  obtain ⟨reads, here⟩ := one.context
  obtain ⟨more, there⟩ := two.context
  refine ⟨two.template.trans one.template, ⟨reads ++ more, ?_⟩, two.settled⟩
  rw [there, here, Context.recorded_append]

variable {before middle after : Expansion}

theorem Kept.data (kept : Kept before after) : after.context.data = before.context.data := by
  obtain ⟨reads, same⟩ := kept.context
  rw [same, Context.data_recorded]

theorem Kept.style (kept : Kept before after) : after.context.style = before.context.style := by
  obtain ⟨reads, same⟩ := kept.context
  rw [same, Context.style_recorded]

theorem Kept.membersIn (kept : Kept before after) :
    after.template.membersIn after.context.data after.context.style =
      before.template.membersIn before.context.data before.context.style := by
  rw [← Foreach.membersIn_unused, kept.template, kept.data, kept.style, Foreach.membersIn_unused]

theorem Kept.stageIn (kept : Kept before after) (key : String) :
    after.template.stageIn after.context.data after.context.style key =
      before.template.stageIn before.context.data before.context.style key := by
  rw [← Foreach.stageIn_unused, kept.template, kept.data, kept.style, Foreach.stageIn_unused]

theorem Kept.stageOf (kept : Kept before after) (members : Node) (key : String) :
    after.template.stageOf after.context.data after.context.style members key =
      before.template.stageOf before.context.data before.context.style members key := by
  rw [← Foreach.stageOf_unused, kept.template, kept.data, kept.style, Foreach.stageOf_unused]

theorem Kept.name (kept : Kept before after) : after.template.name = before.template.name := by
  show after.template.unused.name = before.template.unused.name
  rw [kept.template]

theorem Kept.due (kept : Kept before after) :
    after.template.due after.context = before.template.due before.context := by
  obtain ⟨reads, same⟩ := kept.context
  rw [same, ← Foreach.due_unused, kept.template, Foreach.due_unused]
  rfl

/-- A use for which the members are not looked at. -/
structure Held (before after : Expansion) : Prop where
  kept : Kept before after
  members : after.template.members = before.template.members
  warnings : after.warnings = before.warnings

/-- A use for which the members are looked at: they are kept if they can be told, and if they were
not known, there may be a warning. -/
structure Looked (before after : Expansion) : Prop where
  kept : Kept before after
  members : after.template.members =
    (before.template.membersIn before.context.data before.context.style).toOption
  warnings : after.warnings = before.warnings ++
    if before.template.members.isSome then [] else before.template.due before.context

theorem Looked.held (looked : Looked before middle) (held : Held middle after) :
    Looked before after :=
  ⟨looked.kept.trans held.kept, held.members.trans looked.members,
    held.warnings.trans looked.warnings⟩

/-- Another look adds nothing. -/
theorem Looked.trans (one : Looked before middle) (two : Looked middle after) :
    Looked before after := by
  refine ⟨one.kept.trans two.kept, ?_, ?_⟩
  · rw [two.members, one.kept.membersIn]
  · rw [two.warnings, one.kept.due, Foreach.nothing_due one.members, List.append_nil, one.warnings]

variable {state : Expansion} {α : Type}

/-- Where the members are known, nothing changes when they are looked at. -/
theorem looked_of_known (settled : state.Settled) {members : Node}
    (known : state.template.members = some members) : Looked state state := by
  refine ⟨Kept.refl settled, ?_, ?_⟩
  · rw [known, settled.members members known]
    rfl
  · rw [known, Option.isSome_some, if_pos rfl, List.append_nil]

/-- What a use of a template gives after a look at the members. -/
structure Served (state : Expansion) (result : α × Expansion) (answer : α) : Prop where
  answer : result.1 = answer
  looked : Looked state result.2

theorem Served.kept {result : α × Expansion} {answer : α} (served : Served state result answer) :
    Kept state result.2 := served.looked.kept

/-- A look at the members: they are what the variables give. -/
theorem members_eq (settled : state.Settled) :
    ∃ reads, state.members =
      (state.template.membersIn state.context.data state.context.style,
        { template := state.template.looked state.context
          context := state.context.recorded reads
          warnings := state.warnings ++
            if state.template.members.isSome then [] else state.template.due state.context }) := by
  unfold members
  cases known : state.template.members with
  | some members =>
      have found := settled.members members known
      have kept : state.template.looked state.context = state.template := by
        rw [Foreach.looked_of_ok found, ← known]
      refine ⟨[], ?_⟩
      rw [found, kept, Context.recorded_nil, Option.isSome_some, if_pos rfl, List.append_nil]
  | none =>
      have given : state.template.membersIn state.context.data state.context.style = _ :=
        Foreach.membersIn.eq_1 ..
      simp only [Context.resolveNode, Context.noted, Context.scope]
      generalize (⟨state.context.data, state.context.style, none, false⟩ : Scope).resolveNode
        state.template.iterable = reading at given ⊢
      obtain ⟨reads, error | members⟩ := reading
      · refine ⟨reads, ?_⟩
        rw [given, Foreach.looked_of_error given known, Foreach.due_of_error given, ite_self,
          List.append_nil]
      · dsimp only at given ⊢
        refine ⟨reads, ?_⟩
        by_cases container : members.isContainer = true
        · rw [if_pos container] at given ⊢
          rw [given, Foreach.looked_of_ok given, Foreach.due_of_ok given]
          rfl
        · rw [if_neg container] at given ⊢
          rw [given, Foreach.looked_of_error given known, Foreach.due_of_error given, ite_self,
            List.append_nil]

theorem members_served (settled : state.Settled) :
    Served state state.members
      (state.template.membersIn state.context.data state.context.style) := by
  obtain ⟨reads, look⟩ := members_eq settled
  rw [look]
  exact ⟨rfl, ⟨rfl, ⟨reads, rfl⟩, Foreach.Settled.looked settled⟩, rfl, rfl⟩

/-- Members that are known under their keys are known. -/
theorem known_of_keyed (settled : state.Settled) {entries : Entries Node}
    (known : state.template.keyedMembers = some entries) :
    ∃ members, state.template.members = some members ∧ Foreach.keyed members = entries :=
  Option.map_eq_some_iff.mp (settled.keyed entries known)

theorem keyed_served (settled : state.Settled) :
    Served state state.keyed
      ((state.template.membersIn state.context.data state.context.style).map
        Foreach.keyed) := by
  rw [keyed]
  cases known : state.template.keyedMembers with
  | some entries =>
      obtain ⟨members, held, rfl⟩ := known_of_keyed settled known
      rw [settled.members members held]
      exact ⟨rfl, looked_of_known settled held⟩
  | none =>
      obtain ⟨answer, looked⟩ := members_served settled
      generalize state.members = result at answer looked ⊢
      obtain ⟨error | members, after⟩ := result
      · rw [← answer]
        exact ⟨rfl, looked⟩
      · have told : after.template.members = some members := by
          rw [looked.members, ← answer]
          rfl
        obtain ⟨template, context, whole⟩ := looked.kept
        rw [← answer]
        refine ⟨rfl, ⟨template, context, whole.members, ?_, whole.body⟩, looked.members,
          looked.warnings⟩
        intro entries same
        cases same
        exact congrArg (Option.map Foreach.keyed) told

theorem keyed_eq_ok_iff (settled : state.Settled) {keyed : Entries Node} :
    state.keyed.1 = .ok keyed ↔ ∃ members,
      state.template.membersIn state.context.data state.context.style = .ok members ∧
        Foreach.keyed members = keyed := by
  rw [(keyed_served settled).answer]
  exact map_eq_ok_iff

/-- The members cannot be told, or they are had under their keys. Either way they were looked at. -/
theorem keyed_cases (settled : state.Settled) :
    (∃ error after, state.keyed = (.error error, after) ∧ Looked state after ∧
      state.template.membersIn state.context.data state.context.style = .error error) ∨
    ∃ members after, state.keyed = (.ok (Foreach.keyed members), after) ∧ Looked state after ∧
      state.template.membersIn state.context.data state.context.style = .ok members := by
  obtain ⟨answer, looked⟩ := keyed_served settled
  cases told : state.template.membersIn state.context.data state.context.style with
  | error error =>
      rw [told] at answer
      exact .inl ⟨error, state.keyed.2, Prod.ext answer rfl, looked, rfl⟩
  | ok members =>
      rw [told] at answer
      exact .inr ⟨members, state.keyed.2, Prod.ext answer rfl, looked, rfl⟩

theorem hasMember_served (settled : state.Settled) (key : String) :
    Served state (state.hasMember key)
      ((state.template.membersIn state.context.data state.context.style).map
        fun members => Entries.has key (Foreach.keyed members)) := by
  rw [hasMember]
  obtain ⟨error, after, given, looked, told⟩ | ⟨members, after, given, looked, told⟩ :=
    keyed_cases settled
  · rw [given, told]
    exact ⟨rfl, looked⟩
  · rw [given, told]
    exact ⟨rfl, looked⟩

theorem stageNames_served (settled : state.Settled) :
    Served state state.stageNames
      ((state.template.membersIn state.context.data state.context.style).map
        fun members => (Entries.keys (Foreach.keyed members)).map
          (memberName state.template.name)) := by
  rw [stageNames]
  obtain ⟨error, after, given, looked, told⟩ | ⟨members, after, given, looked, told⟩ :=
    keyed_cases settled
  · rw [given, told]
    exact ⟨rfl, looked⟩
  · rw [given, told, ← looked.kept.name]
    exact ⟨rfl, looked⟩

/-- The body is what the check of its tokens gives, whether it was checked before or not. -/
theorem checkedBody_held (settled : state.Settled) :
    state.checkedBody.1 = state.template.checkedBody ∧ Held state state.checkedBody.2 := by
  rw [checkedBody]
  cases checked : state.template.bodyChecked with
  | true =>
      rw [if_pos rfl, Foreach.checkedBody_of_sound (settled.body checked)]
      exact ⟨rfl, Kept.refl settled, rfl, rfl⟩
  | false =>
      rw [if_neg Bool.false_ne_true]
      cases outcome : state.template.checkedBody with
      | error error => exact ⟨rfl, Kept.refl settled, rfl, rfl⟩
      | ok body =>
          have sound := Foreach.sound_of_checkedBody outcome
          exact ⟨rfl, ⟨rfl, (Kept.refl settled).context, settled.members, settled.keyed,
            fun _ => sound⟩, rfl, rfl⟩

/-- Checking the body changes nothing that the stage of a member depends on. -/
theorem checkedBody_frame (state : Expansion) :
    state.checkedBody.2.context = state.context ∧
      state.checkedBody.2.template.entry = state.template.entry := by
  rw [checkedBody]
  split
  · exact ⟨rfl, rfl⟩
  · cases state.template.checkedBody <;> exact ⟨rfl, rfl⟩

/-- Binding a member, resolving its stage and unbinding it leaves the variables as they were. -/
theorem resolveMember_eq (members : Node) (key : String) (member : Node) :
    state.resolveMember members key member =
      (match state.checkedBody.1 with
        | .error error => .error (.resolve error)
        | .ok body =>
            (({ state.template.entry key with fields := body } : Entry).outcome
              (Entries.putAll state.context.data (Foreach.bindings members key member))
              state.context.style true).mapError .resolve,
        state.checkedBody.2) := by
  obtain ⟨context, entry⟩ := state.checkedBody_frame
  rw [resolveMember, ← context, ← entry]
  generalize state.checkedBody = result
  obtain ⟨error | body, after⟩ := result
  · rfl
  · obtain ⟨reserved, bound⟩ := Context.bind_frame after.context
      (Foreach.bindings members key member) true
    have back := Context.unbind_bind (Foreach.nodup_keys_bindings members key member)
      after.context (after.context.bind (Foreach.bindings members key member) true).1 true rfl rfl
    simp only [Entry.evaluate_eq, back]
    rw [bound]
    dsimp only
    cases ({ after.template.entry key with fields := body } : Entry).outcome
      (Entries.putAll after.context.data (Foreach.bindings members key member))
      after.context.style true <;> rfl

/-- The stage of a member that is there. -/
theorem resolveMember_held (settled : state.Settled) {members : Node} {key : String}
    {member : Node} (found : Entries.value? key (Foreach.keyed members) = some member) :
    (state.resolveMember members key member).1 =
        state.template.stageOf state.context.data state.context.style members key ∧
      Held state (state.resolveMember members key member).2 := by
  obtain ⟨answer, held⟩ := checkedBody_held settled
  rw [resolveMember_eq, answer, Foreach.stageOf, found, Foreach.checkedBody]
  refine ⟨?_, held⟩
  cases state.template.bodyFault? <;> rfl

theorem resolveOne_served (settled : state.Settled) (key : String) :
    Served state (state.resolveOne key)
      (state.template.stageIn state.context.data state.context.style key) := by
  rw [resolveOne, Foreach.stageIn]
  obtain ⟨error, after, given, looked, told⟩ | ⟨members, after, given, looked, told⟩ :=
    keyed_cases settled
  · rw [given, told]
    exact ⟨rfl, looked⟩
  · rw [given, told]
    dsimp only
    cases found : Entries.value? key (Foreach.keyed members) with
    | none =>
        rw [Foreach.stageOf, found, ← looked.kept.name]
        exact ⟨rfl, looked⟩
    | some member =>
        -- What the template runs over is known by now; the body is checked last.
        obtain ⟨again, once⟩ := members_served looked.kept.settled
        rw [looked.kept.membersIn, told] at again
        generalize after.members = result at again once ⊢
        obtain ⟨outcome, last⟩ := result
        cases again
        have whole := looked.trans once
        obtain ⟨stage, held⟩ := resolveMember_held whole.kept.settled found
        rw [whole.kept.stageOf] at stage
        exact ⟨stage, whole.held held⟩

theorem resolveEach_eq_inTurn (keys : List String) (done : Entries Value) (state : Expansion) :
    resolveEach keys done state = Stage.inTurn resolveOne keys done state := by
  induction keys generalizing done state with
  | nil => rfl
  | cons key rest ih =>
      rw [resolveEach, Stage.inTurn]
      rcases state.resolveOne key with ⟨error | stage, after⟩
      · rfl
      · exact ih _ after

/-- Resolving all members gives the stages of all keys, or the first failure among them. -/
theorem resolveAll_served (settled : state.Settled) :
    Served state state.resolveAll
      (match state.template.membersIn state.context.data state.context.style with
      | .error error => .error (.resolve error)
      | .ok members =>
          ((Entries.keys (Foreach.keyed members)).mapM
            (state.template.stageIn state.context.data state.context.style)).map
              fun stages => Entries.ofList (stages.map Stage.entry)) := by
  rw [resolveAll]
  obtain ⟨error, after, given, looked, told⟩ | ⟨members, after, given, looked, told⟩ :=
    keyed_cases settled
  · rw [given, told]
    exact ⟨rfl, looked⟩
  · rw [given, told]
    dsimp only
    rw [resolveEach_eq_inTurn]
    have one : ∀ (later : Expansion) (key : String), Looked state later →
        Served later (later.resolveOne key)
          (state.template.stageIn state.context.data state.context.style key) := by
      intro later key holds
      rw [← holds.kept.stageIn]
      exact resolveOne_served holds.kept.settled key
    have step : ∀ (later : Expansion) (key : String), Looked state later →
        Looked state (later.resolveOne key).2 := by
      intro later key holds
      exact holds.trans (one later key holds).looked
    exact ⟨Stage.inTurn_outcome resolveOne (fun later key holds => (one later key holds).answer)
      step _ [] looked, Stage.inTurn_kept resolveOne step _ [] looked⟩

end Expansion

end StageTemplates
