import StageTemplates.Proofs.DistinctNames
import StageTemplates.Proofs.TemplateOutcome

set_option autoImplicit false

/-!
The stage of a member is that of an entry with the fields of the template, resolved where `item`
stands for the member and, in a dictionary, `key` for its key.
-/
namespace StageTemplates

theorem memberName_injective (group : String) : Function.Injective (memberName group) := by
  intro first second same
  have lists := congrArg String.toList same
  simp only [memberName, String.toList_append, List.append_assoc] at lists
  exact String.toList_inj.mp (List.append_cancel_left (List.append_cancel_left lists))

namespace Foreach

/-- The variables that the stage of a member sees. -/
def memberContext (context : Context) (members : Node) (key : String) (member : Node) :
    Context :=
  let data := Entries.put itemName member context.data
  { context with
    data :=
      if members.isDict then Entries.put keyName (Node.ofLocal (.string key)) data else data }

theorem data_memberContext (context : Context) (members : Node) (key : String) (member : Node) :
    (memberContext context members key member).data =
      Entries.putAll context.data (bindings members key member) := by
  unfold memberContext bindings
  cases members.isDict <;> rfl

/-- Members whose names are distinct have distinct keys. -/
theorem nodup_keys_keyed {members : Node} (distinct : members.Distinct) :
    (Entries.keys (keyed members)).Nodup := by
  cases members with
  | scalar value origin => exact List.nodup_nil
  | list items origin =>
      rw [keyed]
      split <;> exact Entries.nodup_keys_ofList _
  | dict entries origin => exact ((Node.distinct_dict entries origin).mp distinct).1

variable {template : Foreach} {data : Entries Node} {style : Style} {members : Node}

theorem distinct_membersIn (distinct : ∀ entry ∈ data, entry.2.Distinct)
    (given : template.membersIn data style = .ok members) : members.Distinct := by
  unfold membersIn at given
  split at given
  · cases given
  · next found reached =>
      split at given
      · cases given
        have whole : (⟨data, style, none, false⟩ : Scope).Distinct := distinct
        exact Scope.gives_resolveNode whole template.iterable members reached
      · cases given

/-- With sound fields, the stage of a member is that of its entry, checks included. -/
theorem stageOf_eq_checkedOutcome (sound : template.bodyFault? = none) {key : String}
    {member : Node} (found : Entries.value? key (keyed members) = some member)
    (context : Context) :
    template.stageOf context.data style members key =
      ((template.entry key).checkedOutcome (memberContext context members key member).data
        style).mapError .resolve := by
  have fields : ∀ field ∈ template.body, field.2.fault? = none :=
    (fieldFault?_eq_none_iff _ _ _ _).mp sound
  have whole : (template.entry key).syntaxFault? = none :=
    (fieldFault?_eq_none_iff _ _ _ _).mpr fields
  have unchecked : ∀ data, (template.entry key).outcome data style true =
      (template.entry key).outcome data style false := by
    intro data
    unfold Entry.outcome
    rw [Entry.readFields_unchecked data style whole]
  unfold stageOf Entry.checkedOutcome
  rw [found, sound, whole, data_memberContext]
  dsimp only
  rw [unchecked]

/-- Stages of members bear the names of the members. -/
theorem names_of_stages {keys : List String} {stages : List Stage}
    (given : List.Forall₂ (fun key stage => template.stageIn data style key = .ok stage) keys
      stages) :
    stages.map Stage.name = keys.map (memberName template.name) := by
  induction given with
  | nil => rfl
  | cons here _ ih => rw [List.map_cons, List.map_cons, stageIn_name here, ih]

end Foreach

/-- A use of a template. -/
inductive TemplateUse where
  | members
  | keyed
  | checkedBody
  | hasMember (key : String)
  | stageNames
  | resolveOne (key : String)
  | resolveAll

namespace TemplateUse

/-- The state that a use leaves behind. -/
def after (state : Expansion) : TemplateUse → Expansion
  | members => state.members.2
  | keyed => state.keyed.2
  | checkedBody => state.checkedBody.2
  | hasMember key => (state.hasMember key).2
  | stageNames => state.stageNames.2
  | resolveOne key => (state.resolveOne key).2
  | resolveAll => state.resolveAll.2

theorem kept_after {state : Expansion} (settled : state.Settled) (use : TemplateUse) :
    state.Kept (use.after state) := by
  cases use with
  | members => exact (Expansion.members_served settled).kept
  | keyed => exact (Expansion.keyed_served settled).kept
  | checkedBody => exact (Expansion.checkedBody_held settled).2.kept
  | hasMember key => exact (Expansion.hasMember_served settled key).kept
  | stageNames => exact (Expansion.stageNames_served settled).kept
  | resolveOne key => exact (Expansion.resolveOne_served settled key).kept
  | resolveAll => exact (Expansion.resolveAll_served settled).kept

end TemplateUse

namespace Expansion

/-- The state after uses of a template, one after the other. -/
def afterUses (state : Expansion) (uses : List TemplateUse) : Expansion :=
  uses.foldl TemplateUse.after state

theorem kept_afterUses {state : Expansion} (settled : state.Settled)
    (uses : List TemplateUse) : state.Kept (state.afterUses uses) := by
  induction uses generalizing state with
  | nil => exact Kept.refl settled
  | cons use rest ih =>
      have first := TemplateUse.kept_after settled use
      exact first.trans (ih first.settled)

/-- All members in turn: their stages in the order of the names, or the first failure. -/
theorem resolveAll_eq_mapM {state : Expansion} (settled : state.Settled) {members : Node}
    (given : state.template.membersIn state.context.data state.context.style = .ok members)
    (distinct : members.Distinct) :
    state.resolveAll.1 =
      ((Entries.keys (Foreach.keyed members)).mapM fun key => (state.resolveOne key).1).map
        (·.map Stage.entry) := by
  have each : (fun key => (state.resolveOne key).1) =
      state.template.stageIn state.context.data state.context.style :=
    funext fun key => (resolveOne_served settled key).answer
  rw [(resolveAll_served settled).answer, given, each]
  dsimp only
  cases reached : (Entries.keys (Foreach.keyed members)).mapM
      (state.template.stageIn state.context.data state.context.style) with
  | error error => rfl
  | ok stages =>
      have names := Foreach.names_of_stages (mapM_eq_ok_iff.mp reached)
      have apart : (Entries.keys (stages.map Stage.entry)).Nodup := by
        rw [Stage.keys_map_entry, names]
        exact (Foreach.nodup_keys_keyed distinct).map (memberName_injective _)
      show Except.ok (Entries.ofList (stages.map Stage.entry)) = _
      rw [Entries.ofList_of_nodup apart]
      rfl

/-- The stages of all members bear the names that the template announces. -/
theorem stageNames_of_stages {state : Expansion} (settled : state.Settled) {members : Node}
    (given : state.template.membersIn state.context.data state.context.style = .ok members)
    {stages : List Stage}
    (each : List.Forall₂ (fun key stage => (state.resolveOne key).1 = .ok stage)
      (Entries.keys (Foreach.keyed members)) stages) :
    state.stageNames.1 = .ok (stages.map Stage.name) := by
  have pure : List.Forall₂ (fun key stage =>
      state.template.stageIn state.context.data state.context.style key = .ok stage)
      (Entries.keys (Foreach.keyed members)) stages := by
    refine each.imp fun key stage reached => ?_
    rw [← (resolveOne_served settled key).answer, reached]
  rw [(stageNames_served settled).answer, given, Foreach.names_of_stages pure]
  rfl

/-- Together the members succeed when each does. -/
theorem resolveAll_eq_ok_iff {state : Expansion} (settled : state.Settled) {members : Node}
    (given : state.template.membersIn state.context.data state.context.style = .ok members)
    (distinct : members.Distinct) (fields : Entries Value) :
    state.resolveAll.1 = .ok fields ↔
      ∃ stages, List.Forall₂ (fun key stage => (state.resolveOne key).1 = .ok stage)
          (Entries.keys (Foreach.keyed members)) stages ∧
        state.stageNames.1 = .ok (stages.map Stage.name) ∧ fields = stages.map Stage.entry := by
  rw [resolveAll_eq_mapM settled given distinct]
  constructor
  · intro done
    obtain ⟨stages, reached, same⟩ := map_eq_ok_iff.mp done
    have each := mapM_eq_ok_iff.mp reached
    exact ⟨stages, each, stageNames_of_stages settled given each, same.symm⟩
  · rintro ⟨stages, each, -, rfl⟩
    rw [mapM_eq_ok_iff.mpr each]
    rfl

/-- Together they fail as the first one does that fails. -/
theorem resolveAll_eq_error_iff {state : Expansion} (settled : state.Settled) {members : Node}
    (given : state.template.membersIn state.context.data state.context.style = .ok members)
    (distinct : members.Distinct) (error : StageError) :
    state.resolveAll.1 = .error error ↔
      ∃ before key after, Entries.keys (Foreach.keyed members) = before ++ key :: after ∧
        (∀ earlier ∈ before, ∃ stage, (state.resolveOne earlier).1 = .ok stage) ∧
        (state.resolveOne key).1 = .error error := by
  rw [resolveAll_eq_mapM settled given distinct, map_eq_error_iff, mapM_eq_error_iff]

/-- For a template with sound fields, used before in any way with the same variables: the stage of
each member is what an entry with the same fields resolves to, checks included, where `item` stands
for the member and, in a dictionary, `key` for its key. All members together give their stages
under the generated names, in order; if some fail, the failure is that of the first. -/
theorem stage_of_member_eq_resolve_entry (name : String) (iterable : Value)
    (body : Entries Value) (path : String) (context : Context) (distinct : context.Distinct)
    (sound : fieldFault? stagesSection name path body = none) (members : Node)
    (given : (context.resolveNode iterable none false).1 = .ok members)
    (container : members.isContainer = true) (uses : List TemplateUse) :
    let state := (⟨{ name, iterable, body, path }, context, []⟩ : Expansion).afterUses uses
    (∀ key member, Entries.value? key (Foreach.keyed members) = some member →
      (state.resolveOne key).1 =
        ((⟨memberName name key, body, path, stagesSection⟩ : Entry).resolve
          (Foreach.memberContext context members key member)).1.mapError .resolve) ∧
    (∀ fields, state.resolveAll.1 = .ok fields ↔
      ∃ stages, List.Forall₂ (fun key stage => (state.resolveOne key).1 = .ok stage)
          (Entries.keys (Foreach.keyed members)) stages ∧
        state.stageNames.1 = .ok (stages.map Stage.name) ∧ fields = stages.map Stage.entry) ∧
    (∀ error, state.resolveAll.1 = .error error ↔
      ∃ before key after, Entries.keys (Foreach.keyed members) = before ++ key :: after ∧
        (∀ earlier ∈ before, ∃ stage, (state.resolveOne earlier).1 = .ok stage) ∧
        (state.resolveOne key).1 = .error error) := by
  intro state
  let template : Foreach := { name, iterable, body, path }
  have fresh : (⟨template, context, []⟩ : Expansion).Settled :=
    template.settled_unused context.data context.style
  have kept := kept_afterUses fresh uses
  have first : template.membersIn context.data context.style = .ok members := by
    have reached : ((⟨context.data, context.style, none, false⟩ : Scope).resolveNode
      iterable).outcome = .ok members := given
    simp only [Foreach.membersIn, template, reached, container, if_true]
  have now := kept.membersIn.trans first
  have whole : members.Distinct :=
    Foreach.distinct_membersIn ((Context.distinct_iff context).mp distinct).2 first
  have sound' : template.bodyFault? = none := sound
  refine ⟨?_, ?_, ?_⟩
  · intro key member found
    rw [(resolveOne_served kept.settled key).answer, kept.stageIn, Foreach.stageIn, first]
    dsimp only
    rw [Foreach.stageOf_eq_checkedOutcome sound' found, Entry.resolve_eq]
    rfl
  · exact resolveAll_eq_ok_iff kept.settled now whole
  · exact resolveAll_eq_error_iff kept.settled now whole

/-- Models by region, loaded from a file in which `item` is taken. -/
def regionVariables : Context :=
  Context.ofEntries (Origin.ofSource "params.yaml" false) [("item", .scalar (.string "taken")),
    ("models", .dict [("us", .scalar (.string "large")), ("gb", .scalar (.string "small"))])]

theorem stage_of_region :
    (((⟨{ name := "train", iterable := .scalar (.string "${models}"),
          body := [("cmd", .scalar (.string "train ${key} ${item}"))], path := "dvc.yaml" },
        regionVariables, []⟩ : Expansion).afterUses
      [.hasMember "fr", .resolveOne "gb"]).resolveOne "us").1 =
      .ok ⟨"train@us", [("cmd", .scalar (.string "train us large"))],
        ⟨["key", "item"],
          [("params.yaml", [("models.us", .scalar (.string "large"))])]⟩⟩ := by
  have each := (stage_of_member_eq_resolve_entry "train" (.scalar (.string "${models}"))
    [("cmd", .scalar (.string "train ${key} ${item}"))] "dvc.yaml" regionVariables (by decide)
    (by cbv) _ (by cbv) rfl [.hasMember "fr", .resolveOne "gb"]).1 "us" _ rfl
  rw [each]
  cbv

end Expansion

end StageTemplates
