import Mathlib
import StageTemplates.Proofs.ReservedScope

set_option autoImplicit false

/-!
Calls that merge while names are bound and reserved, and the same calls without the bindings.
-/
namespace StageTemplates

namespace MergeStep

/-- The context after steps, whatever each of them came to. -/
def after (fs : FileSystem) (steps : List MergeStep) (context : Context) : Context :=
  steps.foldl (fun context step => (step.run fs context).context) context

/-- Of steps in turn those that are run: none after the first that fails. -/
def attempted (fs : FileSystem) : List MergeStep → Context → List MergeStep
  | [], _ => []
  | step :: rest, context =>
      let change := step.run fs context
      match change.outcome with
      | .error _ => [step]
      | .ok _ => step :: attempted fs rest change.context

theorem after_append (fs : FileSystem) (first second : List MergeStep) (context : Context) :
    after fs (first ++ second) context = after fs second (after fs first context) :=
  List.foldl_append

theorem after_attempted (fs : FileSystem) (steps : List MergeStep) (context : Context) :
    after fs (attempted fs steps context) context = (inTurn fs steps context).context := by
  induction steps generalizing context with
  | nil => rfl
  | cons step rest ih =>
      rw [attempted, inTurn, Change.andThen]
      dsimp only
      cases ran : (step.run fs context).outcome with
      | error error => rfl
      | ok success => exact ih (step.run fs context).context

end MergeStep

namespace MergeCall

/-- The context after calls. A call that fails may have merged something, and the next one goes on
from there. -/
def after (fs : FileSystem) (calls : List MergeCall) (context : Context) : Context :=
  calls.foldl (fun context call => (call.run fs context).context) context

def attempted (fs : FileSystem) : List MergeCall → Context → List MergeStep
  | [], _ => []
  | call :: rest, context =>
      MergeStep.attempted fs (call.steps fs) context ++
        attempted fs rest (call.run fs context).context

/-- All that calls do is done by the steps attempted. -/
theorem after_attempted (fs : FileSystem) (calls : List MergeCall) (context : Context) :
    MergeStep.after fs (attempted fs calls context) context = after fs calls context := by
  induction calls generalizing context with
  | nil => rfl
  | cons call rest ih =>
      rw [attempted, MergeStep.after_append, MergeStep.after_attempted, ← run_eq_inTurn, ih]
      rfl

end MergeCall

/-- A step, and the context it was tried in. -/
structure Attempt where
  step : MergeStep
  before : Context

namespace Attempt

def change (fs : FileSystem) (attempt : Attempt) : Change := attempt.step.run fs attempt.before

def outcome (fs : FileSystem) (attempt : Attempt) : Except ContextError Unit :=
  (attempt.change fs).outcome

def plan (fs : FileSystem) (attempt : Attempt) : MergePlan :=
  attempt.step.plan fs attempt.before.imports

/-- Whether the step gets as far as merging, and one of the names is among what it would merge. -/
def touches (fs : FileSystem) (bindings : Bindings) (attempt : Attempt) : Bool :=
  (attempt.plan fs).touches (Entries.keys bindings.entries)

/-- Steps one after another, whatever each of them came to. -/
def trail (fs : FileSystem) : List MergeStep → Context → List Attempt
  | [], _ => []
  | step :: rest, context => ⟨step, context⟩ :: trail fs rest (step.run fs context).context

/-- The names bound stand for the nodes they were bound to. -/
def Keeps (bindings : Bindings) (context : Context) : Prop :=
  ∀ name node, Entries.value? name bindings.entries = some node → context.get? name = some node

/-- A step is refused for the reserved names it touches, the bound ones among them, and changes
nothing. -/
def Refused (fs : FileSystem) (bindings : Bindings) (attempt : Attempt) : Prop :=
  ∃ update, (attempt.plan fs).update? = some update ∧
    (∀ name ∈ Entries.keys bindings.entries, update.contains name = true →
      name ∈ attempt.before.touched update) ∧
    attempt.outcome fs =
      .error (.reservedKey (attempt.before.touched update) (attempt.plan fs).item?) ∧
    (attempt.change fs).context = attempt.before

end Attempt

namespace Overlay

variable {bindings : Bindings} {context inner outer : Context}

theorem keeps (overlay : Overlay bindings context inner outer) : Attempt.Keeps bindings inner := by
  intro name node found
  rw [← found]
  exact overlay.bound name (Entries.mem_keys_of_value? found)

theorem refused (overlay : Overlay bindings context inner outer) (fs : FileSystem)
    {step : MergeStep} (touches : (Attempt.mk step inner).touches fs bindings = true) :
    (Attempt.mk step inner).Refused fs bindings := by
  obtain ⟨update, planned, listed, ran⟩ := overlay.run_of_touches touches
  have effect := (step.effect_run fs inner).trans ran
  exact ⟨update, planned, listed, congrArg Prod.fst effect, congrArg Prod.snd effect⟩

theorem step (overlay : Overlay bindings context inner outer) (fs : FileSystem)
    {step : MergeStep} (apart : (Attempt.mk step inner).touches fs bindings = false) :
    (step.run fs inner).outcome = (step.run fs outer).outcome ∧
      Overlay bindings context (step.run fs inner).context (step.run fs outer).context := by
  have inside := step.effect_run fs inner
  have outside := step.effect_run fs outer
  rw [← overlay.imports] at outside
  have ran := overlay.run apart
  rw [Attempt.plan, ← inside, ← outside] at ran
  exact ran

/-- The steps that touch no bound name run as they do inside, one after another. -/
theorem trail (overlay : Overlay bindings context inner outer) (fs : FileSystem)
    (steps : List MergeStep) :
    let attempts := Attempt.trail fs steps inner
    let others := attempts.filter fun attempt => !attempt.touches fs bindings
    (∀ attempt ∈ attempts, Attempt.Keeps bindings attempt.before ∧
      (attempt.touches fs bindings = true → attempt.Refused fs bindings)) ∧
    (Attempt.trail fs (others.map Attempt.step) outer).map (Attempt.outcome fs) =
      others.map (Attempt.outcome fs) ∧
    Overlay bindings context (MergeStep.after fs steps inner)
      (MergeStep.after fs (others.map Attempt.step) outer) := by
  induction steps generalizing inner outer with
  | nil => exact ⟨by simp [Attempt.trail], rfl, overlay⟩
  | cons step rest ih =>
      intro attempts others
      have first : Attempt.Keeps bindings inner ∧
          ((Attempt.mk step inner).touches fs bindings = true →
            (Attempt.mk step inner).Refused fs bindings) :=
        ⟨overlay.keeps, overlay.refused fs⟩
      cases touches : (Attempt.mk step inner).touches fs bindings with
      | true =>
          -- The context inside is as before, and outside the step is not run.
          obtain ⟨-, -, -, -, same⟩ := overlay.refused fs touches
          have same : (step.run fs inner).context = inner := same
          obtain ⟨each, outcomes, last⟩ := ih overlay
          have left : others = (Attempt.trail fs rest inner).filter
              fun attempt => !attempt.touches fs bindings := by
            show List.filter _ (⟨step, inner⟩ :: Attempt.trail fs rest _) = _
            rw [List.filter_cons_of_neg (by simp [touches]), same]
          refine ⟨?_, ?_, ?_⟩
          · show ∀ attempt ∈ ⟨step, inner⟩ :: Attempt.trail fs rest _, _
            rw [same]
            exact List.forall_mem_cons.mpr ⟨first, each⟩
          · rw [left]
            exact outcomes
          · show Overlay _ _ (MergeStep.after fs rest (step.run fs inner).context) _
            rw [left, same]
            exact last
      | false =>
          obtain ⟨outcome, still⟩ := overlay.step fs touches
          obtain ⟨each, outcomes, last⟩ := ih still
          have left : others = ⟨step, inner⟩ ::
              (Attempt.trail fs rest (step.run fs inner).context).filter
                fun attempt => !attempt.touches fs bindings :=
            List.filter_cons_of_pos (by simp [touches])
          refine ⟨List.forall_mem_cons.mpr ⟨first, each⟩, ?_, ?_⟩
          · rw [left, List.map_cons, Attempt.trail, List.map_cons, List.map_cons, outcomes]
            exact congrArg (· :: _) outcome.symm
          · rw [left]
            exact last

end Overlay

namespace MergeCall

/-- While names are bound and reserved they stand for the nodes bound to them. Each step that would
merge over one fails with the reserved names it touches and does nothing. When the bindings are
taken back, the context is, but for the order of its names, what the other steps attempted make of
the context of before, and each comes to the same there, the failed ones too. -/
theorem merges_in_reserved_scope (fs : FileSystem) (context : Context)
    (distinct : (Entries.keys context.data).Nodup) (bindings : Bindings)
    (calls : List MergeCall) :
    let inner := (context.bind bindings.entries true).1
    let attempts := Attempt.trail fs (attempted fs calls inner) inner
    let others := attempts.filter fun attempt => !attempt.touches fs bindings
    let plain := MergeStep.after fs (others.map Attempt.step) context
    let released := (after fs calls inner).unbind (context.bind bindings.entries true).2
    (Attempt.Keeps bindings (after fs calls inner) ∧
      ∀ attempt ∈ attempts, Attempt.Keeps bindings attempt.before) ∧
    (∀ attempt ∈ attempts, attempt.touches fs bindings = true → attempt.Refused fs bindings) ∧
    (Attempt.trail fs (others.map Attempt.step) context).map (Attempt.outcome fs) =
      others.map (Attempt.outcome fs) ∧
    (∀ name, released.get? name = plain.get? name) ∧ released.data.Perm plain.data ∧
    released = { plain with data := released.data } := by
  intro inner attempts others plain released
  obtain ⟨each, outcomes, last⟩ :=
    (Overlay.ofBind bindings distinct).trail fs (attempted fs calls inner)
  rw [after_attempted] at last
  obtain ⟨same, rest⟩ := last.unbind
  refine ⟨⟨last.keeps, fun attempt member => (each attempt member).1⟩,
    fun attempt member => (each attempt member).2, outcomes, ?_, same, rest⟩
  intro name
  exact (Entries.value?_perm same.symm last.distinctOuter name).symm

/-- Variables that a loop would bind one of. -/
def counters : Context :=
  Context.ofEntries {} [("item", .int 10), ("rates", .dict [("slow", .int 1)])]

def loopItem : Bindings := ⟨[("item", .ofLocal (.string "first"))], by decide⟩

/-- An update that stops half-way. -/
def faster : MergeStep :=
  .update (Context.ofEntries {} [("rates", .dict [("fast", .int 5), ("slow", .int 6)])]) false

def loopCalls : List MergeCall :=
  [.vars [.dict [("more", .int 2)], .dict [("item", .int 3)], .dict [("never", .int 4)]]
    "" none none, .step faster]

def emptyMemory : FileSystem := MemoryFiles.fileSystem {}

theorem loop_merges_in_reserved_scope :
    (Entries.keys counters.data).Nodup ∧
    ((after emptyMemory loopCalls (counters.bind loopItem.entries true).1).unbind
      (counters.bind loopItem.entries true).2).data.Perm
      (MergeStep.after emptyMemory
        [.update (Context.ofEntries (.ofSource "vars[0]" true) [("more", .int 2)]) false, faster]
        counters).data := by
  have distinct : (Entries.keys counters.data).Nodup := by decide
  obtain ⟨-, -, -, -, same, -⟩ :=
    merges_in_reserved_scope emptyMemory counters distinct loopItem loopCalls
  refine ⟨distinct, ?_⟩
  have others : ((Attempt.trail emptyMemory
      (attempted emptyMemory loopCalls (counters.bind loopItem.entries true).1)
      (counters.bind loopItem.entries true).1).filter
        fun attempt => !attempt.touches emptyMemory loopItem).map Attempt.step =
      [.update (Context.ofEntries (.ofSource "vars[0]" true) [("more", .int 2)]) false, faster] := by
    cbv
  rw [← others]
  exact same

end MergeCall

end StageTemplates
