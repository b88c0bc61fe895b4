import StageTemplates.Proofs.Bindings
import StageTemplates.Proofs.EntryOutcome

set_option autoImplicit false

/-!
Uses of a context that merge nothing. However they are nested and whether they succeed or fail, all
that is left of them is what they read, if reads are being recorded.
-/
namespace StageTemplates

/-- A use of the variables. While a record is kept, and while names are bound, other uses follow
one another. -/
inductive Use where
  | select (key : String)
  | resolve (value : Value) (field : Option String) (unchecked : Bool)
  | resolveNode (value : Value) (field : Option String) (unchecked : Bool)
  | resolveText (text : String) (field : Option String) (unchecked : Bool)
  /-- The stage of an entry, with its tokens checked first or not. -/
  | entry (entry : Entry) (unchecked : Bool)
  /-- A record of reads, which is asked for at the end or dropped. -/
  | track (asked : Bool) (uses : List Use)
  | temporarily (bindings : Bindings) (reserve : Bool) (uses : List Use)

namespace Use

mutual

/-- The context after a use. A use that fails ends like one that succeeds. -/
def run : Use → Context → Context
  | select key, context => (context.select key).2
  | resolve value field unchecked, context => (context.resolve value field unchecked).2
  | resolveNode value field unchecked, context => (context.resolveNode value field unchecked).2
  | resolveText text field unchecked, context => (context.resolveText text field unchecked).2
  | entry written unchecked, context =>
      if unchecked then (written.evaluate context true).2 else (written.resolve context).2
  | track asked uses, context =>
      let inner := runAll uses context.beginTracking
      if asked then (inner.endTracking context.tracked).2
      else { inner with tracked := context.tracked }
  | temporarily bindings reserve uses, context =>
      let (inner, undo) := context.bind bindings.entries reserve
      (runAll uses inner).unbind undo
termination_by structural use => use

def runAll : List Use → Context → Context
  | [], context => context
  | use :: rest, context => runAll rest (run use context)
termination_by structural uses => uses

end

end Use

namespace Context

/-- All that differs is what was noted as read. -/
def Noted (before after : Context) : Prop := ∃ reads, after = before.recorded reads

theorem Noted.refl (context : Context) : Noted context context :=
  ⟨[], (recorded_nil context).symm⟩

theorem Noted.trans {first second third : Context} (one : Noted first second)
    (two : Noted second third) : Noted first third := by
  obtain ⟨reads, rfl⟩ := one
  obtain ⟨more, rfl⟩ := two
  exact ⟨reads ++ more, (recorded_append first reads more).symm⟩

theorem noted_noted {α : Type} (context : Context) (reading : Reading α) :
    Noted context (context.noted reading).2 := ⟨reading.reads, rfl⟩

/-- A record that is ended leaves no trace. -/
theorem Noted.ended {context inner : Context} (noted : Noted context.beginTracking inner) :
    { inner with tracked := context.tracked } = context := by
  obtain ⟨reads, rfl⟩ := noted
  rfl

/-- Bindings that are taken back leave no trace. -/
theorem Noted.unbound {context inner : Context} {bindings : Bindings} {reserve : Bool}
    (noted : Noted (context.bind bindings.entries reserve).1 inner) :
    Noted context (inner.unbind (context.bind bindings.entries reserve).2) := by
  obtain ⟨reads, rfl⟩ := noted
  have back := unbind_bind bindings.distinct context
    ((context.bind bindings.entries reserve).1.recorded reads) reserve rfl rfl
  obtain ⟨reserved, bound⟩ := context.bind_frame bindings.entries reserve
  refine ⟨reads, ?_⟩
  rw [back, bound]
  rfl

end Context

namespace Use

open Context

mutual

theorem noted_run (use : Use) (context : Context) : Noted context (use.run context) := by
  match use with
  | select key => exact noted_noted context _
  | resolve value field unchecked => exact noted_noted context _
  | resolveNode value field unchecked => exact noted_noted context _
  | resolveText text field unchecked => exact noted_noted context _
  | entry written unchecked =>
      rw [run, written.evaluate_eq, written.resolve_eq]
      split
      · exact Noted.refl context
      · exact Noted.refl context
  | track asked uses =>
      have inner := (noted_runAll uses context.beginTracking).ended
      rw [run]
      dsimp only [endTracking]
      split
      · rw [inner]
        exact Noted.refl context
      · rw [inner]
        exact Noted.refl context
  | temporarily bindings reserve uses =>
      rw [run]
      exact (noted_runAll uses (context.bind bindings.entries reserve).1).unbound

theorem noted_runAll (uses : List Use) (context : Context) :
    Noted context (runAll uses context) := by
  match uses with
  | [] => exact Noted.refl context
  | use :: rest => exact (noted_run use context).trans (noted_runAll rest (use.run context))

end

/-- When bindings are taken back, the variables, the reservations, the imports and the style are
those of before, in their order, whatever was done meanwhile; and so is a record of reads, but for
what was read. -/
theorem temporarily_restores (context : Context) (bindings : Bindings) (reserve : Bool)
    (uses : List Use) :
    let after := (temporarily bindings reserve uses).run context
    after.data = context.data ∧ after.reserved = context.reserved ∧
      after.imports = context.imports ∧ after.style = context.style ∧
      after.origin = context.origin ∧
      ∃ reads, after.tracked = context.tracked.map (·.recordAll reads) := by
  intro after
  obtain ⟨reads, same⟩ := noted_run (temporarily bindings reserve uses) context
  have recorded : after = context.recorded reads := same
  rw [recorded]
  exact ⟨rfl, rfl, rfl, rfl, rfl, reads, rfl⟩

end Use

end StageTemplates
