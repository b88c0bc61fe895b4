import StageTemplates.Proofs.Inventories
import StageTemplates.Proofs.LoadedVariables

set_option autoImplicit false

/-!
Each step that merges without overwriting does what a request asks of the inventory, and fails if
the request cannot be met.
-/
namespace StageTemplates

/-- The keys of a file without their order. -/
def Share.ofKeys (keys : Option (List String)) : Share := keys.map fun keys => {key | key ∈ keys}

/-- What imports note as loaded of each file. -/
def Share.ofImports (imports : Entries (Option (List String))) (path : String) : Option Share :=
  (Entries.value? path imports).map ofKeys

namespace Context

/-- What is loaded of a file, if anything is. -/
def share? (context : Context) : String → Option Share := Share.ofImports context.imports

def inventory (context : Context) : Inventory := ⟨Outline.ofEntries context.data, context.share?⟩

/-- Nothing is reserved, and every name is given once. -/
structure Clear (context : Context) : Prop where
  unreserved : context.reserved = []
  distinct : context.Distinct

/-- The inventory that an effect leaves, if it is a success. -/
def settled? (effect : Except ContextError Unit × Context) : Option Inventory :=
  match effect.1 with
  | .ok _ => some effect.2.inventory
  | .error _ => none

theorem keptByMerging_clear : KeptByMerging Clear where
  merge {context update} overwrite clear distinct := by
    obtain ⟨data, frame⟩ := context.merge_frame update overwrite
    have reserved : (context.merge update overwrite).2.reserved = context.reserved := by rw [frame]
    exact ⟨reserved.trans clear.unreserved, distinct_merge clear.distinct distinct overwrite⟩
  imports _ clear := ⟨clear.unreserved, clear.distinct⟩

end Context

open Context

namespace Share

theorem ofImports_put (path : String) (keys : Option (List String))
    (imports : Entries (Option (List String))) :
    ofImports (Entries.put path keys imports) =
      Function.update (ofImports imports) path (some (.ofKeys keys)) := by
  funext name
  rw [ofImports, Entries.value?_put, Function.update_apply]
  split
  · rfl
  · rfl

theorem ofImports_addImport_of_none {imports : Entries (Option (List String))} {path : String}
    (fresh : Entries.value? path imports = none) (keys : Option (List String)) :
    ofImports (addImport imports path keys) =
      Function.update (ofImports imports) path (some (.ofKeys keys)) := by
  rw [addImport, fresh]
  exact ofImports_put path keys imports

theorem ofImports_addImport_of_some {imports : Entries (Option (List String))} {path : String}
    {loaded : List String} (part : Entries.value? path imports = some (some loaded))
    (keys : List String) :
    ofImports (addImport imports path (some keys)) =
      Function.update (ofImports imports) path
        (some (some ({key | key ∈ loaded} ∪ {key | key ∈ keys}))) := by
  have both : ofKeys (some (loaded ++ keys)) =
      some ({key | key ∈ loaded} ∪ {key | key ∈ keys}) := by
    refine congrArg some ?_
    ext key
    exact List.mem_append
  rw [addImport, part, ← both]
  exact ofImports_put path _ imports

end Share

/-- A merge without overwriting adds what it merges. -/
theorem MergePlan.settled?_merging {context update : Context} (clear : context.Clear)
    (distinct : update.Distinct) (file : Option ImportNote) :
    settled? ((MergePlan.merging update false file).run context) =
      (context.inventory.outline.add (Outline.ofEntries update.data)).map fun outline =>
        ⟨outline, Share.ofImports (MergePlan.noted context.imports file)⟩ := by
  have free : context.touched update = [] := by rw [touched, clear.unreserved]; rfl
  have parts := Node.mergedEntriesOutline?_merge context.data update.data
    ((distinct_iff update).mp distinct)
  rw [MergePlan.run, merge, free, inventory, ← parts]
  unfold Node.mergedEntriesOutline?
  dsimp only
  cases (Node.mergeEntries false context.data update.data).2 with
  | none => rfl
  | some error => rfl

/-- The outline of a file, or of keys of it, if they can be had. -/
def fileOutline? (fs : FileSystem) (path : String) (keys : Option (List String)) :
    Option Outline :=
  match (ofFile? fs path keys).1 with
  | .ok loaded => some (Outline.ofEntries loaded.data)
  | .error _ => none

namespace MergeStep

/-- What a step asks for. -/
def request (fs : FileSystem) : MergeStep → Request
  | update other _ => ⟨none, some (Outline.ofEntries other.data)⟩
  | file item wdir _ =>
      ⟨some (MergePlan.pathOf item wdir, .ofKeys (importParts item).2),
        fileOutline? fs (MergePlan.pathOf item wdir) (importParts item).2⟩
  | refused _ => ⟨none, none⟩

/-- Requests for all of one file ask for the same. -/
theorem content_request {fs : FileSystem} {step : MergeStep} {path : String}
    (asked : (step.request fs).file = some (path, none)) :
    (step.request fs).content = fileOutline? fs path none := by
  cases step with
  | update other overwrite => cases asked
  | refused kind => cases asked
  | file item wdir overwrite =>
      unfold request at asked ⊢
      dsimp only at asked ⊢
      generalize (importParts item).2 = keys at asked ⊢
      cases keys with
      | some keys => cases asked
      | none =>
          cases asked
          rfl

section

variable {context : Context} (clear : context.Clear) (fs : FileSystem)
include clear

/-- A file that is read for its entries adds them, and is noted. -/
theorem settled?_ofFile (item path : String) (keys : Option (List String)) {share : Share}
    (noted : Share.ofImports (addImport context.imports path keys) =
      Function.update (Share.ofImports context.imports) path (some share)) :
    settled? ((MergePlan.ofFile fs item path keys false).run context) =
      context.inventory.load (fileOutline? fs path keys) (some (path, share)) := by
  unfold MergePlan.ofFile fileOutline?
  cases given : ofFile? fs path keys with
  | mk outcome reads =>
      cases outcome with
      | error error => rfl
      | ok loaded =>
          dsimp only
          rw [MergePlan.settled?_merging clear (distinct_ofFile? given)]
          refine congrArg (Option.map · _) (funext fun outline => ?_)
          exact congrArg (Inventory.mk outline) noted

/-- The verdict on a file is the one that its imports give. -/
theorem settled?_ofPath (item path : String) (keys : Option (List String)) :
    settled? ((MergePlan.ofPath fs context.imports item path keys false).run context) =
      context.inventory.grant ⟨some (path, .ofKeys keys), fileOutline? fs path keys⟩ := by
  unfold MergePlan.ofPath Inventory.grant Inventory.verdict
  dsimp only
  have share : context.inventory.imports path =
      (Entries.value? path context.imports).map Share.ofKeys := rfl
  rw [share]
  match found : Entries.value? path context.imports, keys with
  | none, keys =>
      exact settled?_ofFile clear fs item path keys
        (Share.ofImports_addImport_of_none found keys)
  | some none, none => rfl
  | some none, some keys => rfl
  | some (some loaded), none => rfl
  | some (some loaded), some keys =>
      have overlap : keys.any loaded.contains = true ↔
          ¬ Disjoint {key | key ∈ loaded} {key | key ∈ keys} := by
        rw [List.any_eq_true, Set.not_disjoint_iff]
        simp only [List.contains_eq_mem, decide_eq_true_eq, Set.mem_ofPred_eq]
        exact exists_congr fun key => and_comm
      dsimp only [reloadConflict?, Option.isNone, Bool.false_and]
      by_cases apart : Disjoint {key | key ∈ loaded} {key | key ∈ keys}
      · have free : ¬ keys.any loaded.contains = true := fun shared => overlap.mp shared apart
        have verdict : Verdict.on ((some (some loaded)).map Share.ofKeys) (.ofKeys (some keys)) =
            .loads (some ({key | key ∈ loaded} ∪ {key | key ∈ keys})) := if_pos apart
        rw [if_neg free, verdict]
        exact settled?_ofFile clear fs item path (some keys)
          (Share.ofImports_addImport_of_some found keys)
      · have verdict : Verdict.on ((some (some loaded)).map Share.ofKeys) (.ofKeys (some keys)) =
            .refused := if_neg apart
        rw [if_pos (overlap.mpr apart), verdict]
        rfl

/-- A step that overwrites nothing does what its request asks. -/
theorem settled?_run {step : MergeStep} (adds : step.Adds) :
    settled? (step.run fs context).effect = context.inventory.grant (step.request fs) := by
  rw [effect_run]
  cases step with
  | refused kind => rfl
  | file item wdir overwrite =>
      cases adds
      exact settled?_ofPath clear fs item _ _
  | update other overwrite =>
      obtain ⟨distinct, rfl⟩ := adds
      exact MergePlan.settled?_merging clear distinct none

theorem settled?_inTurn {steps : List MergeStep} (adds : ∀ step ∈ steps, step.Adds) :
    settled? (inTurn fs steps context).effect =
      context.inventory.grantAll (steps.map (request fs)) := by
  induction steps generalizing context with
  | nil => rfl
  | cons step rest ih =>
      rw [List.forall_mem_cons] at adds
      have first := settled?_run clear fs adds.1
      have later := ih (keptByMerging_clear.step fs adds.1 clear) adds.2
      rw [List.map_cons, Inventory.grantAll_cons, ← first, inTurn]
      unfold Change.andThen Change.effect settled? at *
      cases ran : (step.run fs context).outcome with
      | error error => rfl
      | ok success => exact later

end

end MergeStep

end StageTemplates
