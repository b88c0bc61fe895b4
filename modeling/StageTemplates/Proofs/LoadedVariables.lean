import StageTemplates.Proofs.FileData
import StageTemplates.Proofs.MergeSteps

set_option autoImplicit false

/-!
Loading keeps each name once among the variables, and begins no record of reads. This holds of
loads that fail as well.
-/
namespace StageTemplates

namespace Entries

variable {α : Type}

theorem mem_of_mem_erase {key : String} {entry : String × α} {entries : Entries α}
    (member : entry ∈ erase key entries) : entry ∈ entries := by
  induction entries with
  | nil => simp [erase] at member
  | cons first rest ih =>
      obtain ⟨name, value⟩ := first
      by_cases same : name = key
      · rw [erase, if_pos same] at member
        exact List.mem_cons_of_mem _ member
      · rw [erase, if_neg same] at member
        rcases List.mem_cons.mp member with here | later
        · exact here ▸ List.mem_cons_self
        · exact List.mem_cons_of_mem _ (ih later)

theorem mem_erase_of_ne {key : String} {entry : String × α} {entries : Entries α}
    (different : entry.1 ≠ key) (member : entry ∈ entries) : entry ∈ erase key entries := by
  induction entries with
  | nil => cases member
  | cons first rest ih =>
      obtain ⟨name, value⟩ := first
      by_cases same : name = key
      · rw [erase, if_pos same]
        rcases List.mem_cons.mp member with rfl | later
        · exact absurd same different
        · exact later
      · rw [erase, if_neg same]
        rcases List.mem_cons.mp member with here | later
        · exact here ▸ List.mem_cons_self
        · exact List.mem_cons_of_mem _ (ih later)

end Entries

theorem Value.Distinct.erase {entries : Entries Value} (distinct : (dict entries).Distinct)
    (key : String) : (dict (Entries.erase key entries)).Distinct := by
  rw [distinct_dict] at distinct ⊢
  refine ⟨?_, fun entry member => distinct.2 entry (Entries.mem_of_mem_erase member)⟩
  rw [Entries.keys_erase]
  exact distinct.1.erase key

namespace Node

mutual

theorem distinct_merge (overwrite : Bool) (key : String) {present : Node} (added : Node)
    (old : present.Distinct) (new : added.Distinct) :
    (merge overwrite key present added).1.Distinct := by
  have replacement : ∀ added : Node, added.Distinct →
      (replaced overwrite key present added).1.Distinct := by
    intro added new
    unfold replaced
    split
    · exact new
    · exact old
  match added with
  | .scalar value origin => exact replacement _ new
  | .list items origin => exact replacement _ new
  | .dict added origin =>
      cases present with
      | scalar value kept => exact replacement _ new
      | list items kept => exact replacement _ new
      | dict entries kept =>
          exact distinct_mergeEntries overwrite added kept old
            ((distinct_dict added origin).mp new).2

/-- Entries merged into entries with distinct names leave the names distinct. -/
theorem distinct_mergeEntries (overwrite : Bool) {into : Entries Node}
    (added : List (String × Node)) (origin : Origin) (old : (dict into origin).Distinct)
    (new : ∀ entry ∈ added, entry.2.Distinct) :
    (dict (mergeEntries overwrite into added).1 origin).Distinct := by
  match added with
  | [] => exact old
  | (key, node) :: rest =>
      rw [List.forall_mem_cons] at new
      have whole := (distinct_dict into origin).mp old
      rw [mergeEntries]
      cases found : Entries.value? key into with
      | none =>
          have absent := (Entries.value?_eq_none_iff key into).mp found
          have grown : (dict (into ++ [(key, node)]) origin).Distinct := by
            rw [distinct_dict, ← Entries.put_of_not_mem absent]
            exact ⟨Entries.nodup_keys_put whole.1 key node, Entries.forall_put new.1 whole.2⟩
          exact distinct_mergeEntries overwrite rest origin grown new.2
      | some present =>
          have here : (merge overwrite key present node).1.Distinct :=
            distinct_merge overwrite key node
              (whole.2 (key, present) (Entries.mem_of_value? found)) new.1
          have written : (dict (Entries.put key (merge overwrite key present node).1 into)
              origin).Distinct := by
            rw [distinct_dict]
            exact ⟨Entries.nodup_keys_put whole.1 key _, Entries.forall_put here whole.2⟩
          dsimp only
          split
          · exact distinct_mergeEntries overwrite rest origin written new.2
          · exact written

end

end Node

/-- What a change keeps, the one after it keeps too. -/
theorem Change.andThen_keeps {holds : Context → Prop} {change : Change}
    {next : Context → Change} (first : holds change.context)
    (later : ∀ context, holds context → holds (next context).context) :
    holds (change.andThen next).context := by
  unfold Change.andThen
  split
  · exact first
  · exact later change.context first

namespace Context

theorem distinct_pick {path : String} {keys : List String} {entries picked : Entries Value}
    (distinct : (Value.dict entries).Distinct) (given : pick path keys entries = .ok picked) :
    (Value.dict picked).Distinct ∧ ∀ name ∈ Entries.keys picked, name ∈ Entries.keys entries := by
  induction keys generalizing entries picked with
  | nil =>
      cases given
      exact ⟨Value.distinct_nothing, by simp⟩
  | cons key rest ih =>
      rw [pick] at given
      split at given
      · cases given
      · next value found =>
          split at given
          · next others later =>
              cases given
              obtain ⟨whole, within⟩ := ih (distinct.erase key) later
              rw [Value.distinct_dict] at whole ⊢
              have apart : ∀ name ∈ Entries.keys others,
                  name ≠ key ∧ name ∈ Entries.keys entries := by
                intro name member
                have left := within name member
                rw [Entries.keys_erase] at left
                exact ((Value.distinct_dict entries).mp distinct).1.mem_erase_iff.mp left
              refine ⟨⟨?_, List.forall_mem_cons.mpr ⟨distinct.value? found, whole.2⟩⟩, ?_⟩
              · rw [Entries.keys_cons, List.nodup_cons]
                exact ⟨fun member => (apart key member).1 rfl, whole.1⟩
              · rw [Entries.keys_cons, List.forall_mem_cons]
                exact ⟨Entries.mem_keys_of_value? found, fun name member => (apart name member).2⟩
          · cases given

theorem distinct_fileEntries {fs : FileSystem} {path : String} {keys : Option (List String)}
    {entries : Entries Value} (given : fileEntries fs path keys = .ok entries) :
    (Value.dict entries).Distinct := by
  unfold fileEntries at given
  split at given
  · cases given
  · next whole found =>
      have distinct : (Value.dict whole).Distinct := VariablesFile.distinct_load found
      split at given
      · exact (distinct_pick distinct given).1
      · cases given
        exact distinct
  · cases given

theorem distinct_ofFile? {fs : FileSystem} {path : String} {keys : Option (List String)}
    {loaded : Context} {reads : List String}
    (given : ofFile? fs path keys = (.ok loaded, reads)) : loaded.Distinct := by
  unfold ofFile? at given
  split at given
  · cases given
  · split at given
    · cases given
    · split at given
      · cases given
      · next found =>
          cases given
          exact distinct_ofEntries (distinct_fileEntries found) _

/-- Merging touches the variables, nothing else. -/
theorem merge_frame (context update : Context) (overwrite : Bool) :
    ∃ data, (context.merge update overwrite).2 = { context with data } := by
  unfold merge
  split
  · dsimp only
    split
    · exact ⟨_, rfl⟩
    · exact ⟨_, rfl⟩
  · exact ⟨context.data, rfl⟩

theorem distinct_merge {context update : Context} (old : context.Distinct)
    (new : update.Distinct) (overwrite : Bool) : (context.merge update overwrite).2.Distinct := by
  unfold merge
  split
  · have merged := Node.distinct_mergeEntries overwrite update.data {} old
      ((distinct_iff update).mp new).2
    dsimp only
    split
    · exact merged
    · exact merged
  · exact old

end Context

open Context

namespace MergePlan

theorem loaded_of_ofFile {fs : FileSystem} {item path : String} {keys : Option (List String)}
    {overwrite : Bool} {update : Context}
    (planned : (ofFile fs item path keys overwrite).update? = some update) :
    (Context.ofFile? fs path keys).1 = .ok update := by
  unfold ofFile at planned
  split at planned
  · cases planned
  · next loaded given =>
      cases planned
      exact given

/-- What an item would merge is a file as it is loaded, or a part of it. -/
theorem loaded_of_ofImport {fs : FileSystem} {imports : Entries (Option (List String))}
    {item wdir : String} {overwrite : Bool} {update : Context}
    (planned : (ofImport fs imports item wdir overwrite).update? = some update) :
    ∃ path keys, (Context.ofFile? fs path keys).1 = .ok update := by
  unfold ofImport ofPath at planned
  split at planned
  · exact ⟨_, _, loaded_of_ofFile planned⟩
  · split at planned
    · cases planned
    · split at planned
      · cases planned
      · exact ⟨_, _, loaded_of_ofFile planned⟩

/-- What is read from a file names everything once. -/
theorem distinct_ofImport {fs : FileSystem} {imports : Entries (Option (List String))}
    {item wdir : String} {overwrite : Bool} {update : Context}
    (planned : (ofImport fs imports item wdir overwrite).update? = some update) :
    update.Distinct := by
  obtain ⟨path, keys, given⟩ := loaded_of_ofImport planned
  exact distinct_ofFile? (Prod.ext given rfl)

end MergePlan

/-- A property that contexts keep when others that `brings` holds of are merged into them, and when
a file is noted among the imports. -/
structure KeptWith (brings holds : Context → Prop) : Prop where
  merge : ∀ {context update : Context} (overwrite : Bool), holds context → brings update →
    holds (context.merge update overwrite).2
  imports : ∀ {context : Context} (imports : Entries (Option (List String))), holds context →
    holds { context with imports }

/-- A property that contexts keep when something with distinct names is merged into them, and when a
file is noted among the imports. -/
structure KeptByMerging (holds : Context → Prop) : Prop where
  merge : ∀ {context update : Context} (overwrite : Bool), holds context → update.Distinct →
    holds (context.merge update overwrite).2
  imports : ∀ {context : Context} (imports : Entries (Option (List String))), holds context →
    holds { context with imports }

theorem KeptByMerging.keptWith {holds : Context → Prop} (kept : KeptByMerging holds) :
    KeptWith Context.Distinct holds where
  merge := kept.merge
  imports := kept.imports

/-- Steps that merge only what `brings` holds of, whatever was imported before. -/
def MergeStep.Brings (fs : FileSystem) (brings : Context → Prop) (step : MergeStep) : Prop :=
  ∀ imports update, (step.plan fs imports).update? = some update → brings update

namespace KeptWith

variable {brings holds : Context → Prop} (kept : KeptWith brings holds)
include kept

theorem plan {plan : MergePlan} (all : ∀ update, plan.update? = some update → brings update)
    {context : Context} (start : holds context) : holds (plan.run context).2 := by
  cases plan with
  | answer outcome => exact start
  | merging update overwrite file =>
      have merged := kept.merge overwrite start (all update rfl)
      rw [MergePlan.run]
      generalize context.merge update overwrite = result at merged
      obtain ⟨error | success, after⟩ := result
      · exact merged
      · exact kept.imports _ merged

theorem step (fs : FileSystem) {step : MergeStep} (all : step.Brings fs brings)
    {context : Context} (start : holds context) : holds (step.run fs context).context := by
  have planned := kept.plan (all context.imports) start
  rw [← step.effect_run] at planned
  exact planned

theorem inTurn (fs : FileSystem) {steps : List MergeStep}
    (all : ∀ step ∈ steps, step.Brings fs brings) {context : Context} (start : holds context) :
    holds (MergeStep.inTurn fs steps context).context := by
  induction steps generalizing context with
  | nil => exact start
  | cons step rest ih =>
      rw [List.forall_mem_cons] at all
      exact Change.andThen_keeps (kept.step fs all.1 start) fun later => ih all.2

end KeptWith

namespace MergeStep

/-- Steps that overwrite nothing, with distinct names in what they hold themselves. -/
def Adds : MergeStep → Prop
  | update other overwrite => other.Distinct ∧ overwrite = false
  | file _ _ overwrite => overwrite = false
  | refused _ => True

theorem adds_ofItem (wdir stage : String) (index : Nat) {item : Value}
    (distinct : item.Distinct) : (ofItem wdir stage index item).Adds := by
  cases item with
  | dict entries => exact ⟨distinct_ofEntries distinct _, rfl⟩
  | list items => trivial
  | scalar value =>
      cases value with
      | string item => exact rfl
      | _ => trivial

theorem forall_ofItems {holds : MergeStep → Prop} {wdir stage : String} {items : List Value}
    (each : ∀ item ∈ items, ∀ index, holds (ofItem wdir stage index item)) (index : Nat) :
    ∀ step ∈ ofItems wdir stage index items, holds step := by
  induction items generalizing index with
  | nil =>
      intro step member
      cases member
  | cons item rest ih =>
      rw [List.forall_mem_cons] at each
      rw [ofItems, List.forall_mem_cons]
      exact ⟨each.1 index, ih each.2 (index + 1)⟩

theorem Adds.brings {fs : FileSystem} {step : MergeStep} (adds : step.Adds) :
    step.Brings fs Context.Distinct := by
  intro imports update planned
  cases step with
  | refused kind => cases planned
  | update other overwrite =>
      cases planned
      exact adds.1
  | file item wdir overwrite => exact MergePlan.distinct_ofImport planned

end MergeStep

namespace KeptByMerging

variable {holds : Context → Prop} (kept : KeptByMerging holds)
include kept

theorem step (fs : FileSystem) {step : MergeStep} (adds : step.Adds) {context : Context}
    (start : holds context) : holds (step.run fs context).context :=
  kept.keptWith.step fs adds.brings start

theorem inTurn (fs : FileSystem) {steps : List MergeStep} (adds : ∀ step ∈ steps, step.Adds)
    {context : Context} (start : holds context) :
    holds (MergeStep.inTurn fs steps context).context :=
  kept.keptWith.inTurn fs (fun step member => (adds step member).brings) start

end KeptByMerging

namespace MergeCall

/-- The steps of a `vars` section are those of the default file and one for each item. -/
theorem forall_vars {holds : MergeStep → Prop} {fs : FileSystem} {items : List Value}
    {wdir : String} {stage standard : Option String}
    (default : ∀ file, holds (.file file wdir false))
    (each : ∀ item ∈ items, ∀ stage index, holds (.ofItem wdir stage index item)) :
    ∀ step ∈ (vars items wdir stage standard).steps fs, holds step := by
  unfold steps
  dsimp only
  rw [List.forall_mem_append]
  refine ⟨?_, MergeStep.forall_ofItems (fun item member => each item member _) 0⟩
  cases standard with
  | none =>
      intro step member
      cases member
  | some file =>
      dsimp only
      split
      · exact List.forall_mem_singleton.mpr (default file)
      · intro step member
        cases member

theorem adds_vars (fs : FileSystem) {items : List Value}
    (distinct : ∀ item ∈ items, item.Distinct) (wdir : String) (stage standard : Option String) :
    ∀ step ∈ (vars items wdir stage standard).steps fs, step.Adds :=
  forall_vars (fun _ => rfl) fun item member stage index =>
    MergeStep.adds_ofItem wdir stage index (distinct item member)

end MergeCall

namespace Context

/-- A context in which nothing is being recorded and every name is given once. -/
structure Idle (context : Context) : Prop where
  untracked : context.tracked = none
  distinct : context.Distinct

theorem keptByMerging_idle : KeptByMerging Idle where
  merge {context update} overwrite idle distinct := by
    obtain ⟨data, frame⟩ := context.merge_frame update overwrite
    have untracked : (context.merge update overwrite).2.tracked = context.tracked := by rw [frame]
    exact ⟨untracked.trans idle.untracked, distinct_merge idle.distinct distinct overwrite⟩
  imports _ idle := ⟨idle.untracked, idle.distinct⟩

theorem Idle.loadVars {context : Context} (idle : context.Idle) (fs : FileSystem)
    {items : List Value} (distinct : ∀ item ∈ items, item.Distinct) (wdir : String)
    (stage standard : Option String) :
    (context.loadVars fs items wdir stage standard).context.Idle := by
  have steps := MergeCall.run_eq_inTurn fs context (.vars items wdir stage standard)
  rw [MergeCall.run] at steps
  rw [steps]
  exact keptByMerging_idle.inTurn fs (MergeCall.adds_vars fs distinct wdir stage standard) idle

end Context

end StageTemplates
