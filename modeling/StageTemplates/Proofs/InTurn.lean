import Mathlib.Data.List.Forall2
import StageTemplates.Proofs.Entries
import StageTemplates.Stage.Basic

set_option autoImplicit false

/-!
Going through a list up to the first failure.
-/
namespace StageTemplates

section Failing

variable {ε α β : Type} {f : α → Except ε β}

theorem map_eq_ok_iff {g : α → β} {outcome : Except ε α} {result : β} :
    outcome.map g = .ok result ↔ ∃ given, outcome = .ok given ∧ g given = result := by
  cases outcome <;> simp [Except.map]

theorem map_eq_error_iff {g : α → β} {outcome : Except ε α} {error : ε} :
    outcome.map g = .error error ↔ outcome = .error error := by
  cases outcome <;> simp [Except.map]

theorem mapM_cons_of_ok {x : α} {y : β} (here : f x = .ok y) (rest : List α) :
    (x :: rest).mapM f = (rest.mapM f).map (y :: ·) := by
  rw [List.mapM_cons, here]
  cases rest.mapM f <;> rfl

theorem mapM_cons_of_error {x : α} {error : ε} (here : f x = .error error) (rest : List α) :
    (x :: rest).mapM f = .error error := by
  rw [List.mapM_cons, here]
  rfl

theorem mapM_cons_eq_ok_iff {x : α} {rest : List α} {results : List β} :
    (x :: rest).mapM f = .ok results ↔
      ∃ y others, f x = .ok y ∧ rest.mapM f = .ok others ∧ results = y :: others := by
  cases here : f x with
  | error error =>
      rw [mapM_cons_of_error here]
      constructor
      · intro impossible
        cases impossible
      · rintro ⟨y, others, impossible, -⟩
        cases impossible
  | ok y =>
      rw [mapM_cons_of_ok here, map_eq_ok_iff]
      constructor
      · rintro ⟨others, later, same⟩
        exact ⟨y, others, rfl, later, same.symm⟩
      · rintro ⟨first, others, same, later, rfl⟩
        cases same
        exact ⟨others, later, rfl⟩

theorem mapM_cons_eq_error_iff {x : α} {rest : List α} {error : ε} :
    (x :: rest).mapM f = .error error ↔
      f x = .error error ∨ (∃ y, f x = .ok y) ∧ rest.mapM f = .error error := by
  cases here : f x with
  | error reason =>
      rw [mapM_cons_of_error here]
      simp
  | ok y =>
      rw [mapM_cons_of_ok here, map_eq_error_iff]
      simp

/-- All items succeed, each giving the result at its place. -/
theorem mapM_eq_ok_iff {items : List α} {results : List β} :
    items.mapM f = .ok results ↔ List.Forall₂ (fun x y => f x = .ok y) items results := by
  induction items generalizing results with
  | nil =>
      rw [List.forall₂_nil_left_iff, List.mapM_nil]
      exact ⟨fun same => (Except.ok.inj same).symm, fun same => same ▸ rfl⟩
  | cons x rest ih =>
      rw [mapM_cons_eq_ok_iff, List.forall₂_cons_left_iff]
      simp only [ih]

/-- The failure is that of the first item that fails. -/
theorem mapM_eq_error_iff {items : List α} {error : ε} :
    items.mapM f = .error error ↔
      ∃ before x after, items = before ++ x :: after ∧ (∀ y ∈ before, ∃ z, f y = .ok z) ∧
        f x = .error error := by
  induction items with
  | nil =>
      constructor
      · intro impossible
        cases impossible
      · rintro ⟨before, x, after, split, -, -⟩
        simp at split
  | cons first rest ih =>
      rw [mapM_cons_eq_error_iff, ih]
      constructor
      · rintro (failed | ⟨here, before, x, after, rfl, succeed, failed⟩)
        · exact ⟨[], first, rest, rfl, by simp, failed⟩
        · refine ⟨first :: before, x, after, rfl, ?_, failed⟩
          exact List.forall_mem_cons.mpr ⟨here, succeed⟩
      · rintro ⟨before, x, after, split, succeed, failed⟩
        cases before with
        | nil =>
            cases split
            exact Or.inl failed
        | cons z before =>
            cases split
            obtain ⟨here, later⟩ := List.forall_mem_cons.mp succeed
            exact Or.inr ⟨here, before, x, after, rfl, later, failed⟩

/-- The results of the items before the first that fails. -/
def succeeding (f : α → Except ε β) : List α → List β
  | [] => []
  | x :: rest =>
      match f x with
      | .error _ => []
      | .ok y => y :: succeeding f rest

theorem succeeding_of_ok {items : List α} {results : List β}
    (each : List.Forall₂ (fun x y => f x = .ok y) items results) :
    succeeding f items = results := by
  induction each with
  | nil => rfl
  | cons here _ ih => rw [succeeding, here, ih]

end Failing

namespace Stage

/-- What was read for a stage, under its name. -/
def record (stage : Stage) : String × Tracked := (stage.name, stage.tracked)

@[simp] theorem keys_map_entry (stages : List Stage) :
    Entries.keys (stages.map entry) = stages.map name := by
  rw [Entries.keys, List.map_map]
  rfl

@[simp] theorem keys_map_record (stages : List Stage) :
    Entries.keys (stages.map record) = stages.map name := by
  rw [Entries.keys, List.map_map]
  rfl

variable {σ : Type} (step : σ → String → Except StageError Stage × σ)

/-- Stages resolved by name one after another, up to the first that fails. -/
def inTurn : (names : List String) → Entries Value → σ → Except StageError (Entries Value) × σ
  | [], done, state => (.ok done, state)
  | name :: rest, done, state =>
      match step state name with
      | (.error error, state) => (.error error, state)
      | (.ok stage, state) => inTurn rest (Entries.put stage.name (.dict stage.fields) done) state

/-- If the outcome of a step depends on the name alone, resolving names in turn gives the stages of
all names, or the first failure. -/
theorem inTurn_outcome {holds : σ → Prop} {pure : String → Except StageError Stage}
    (outcome : ∀ state name, holds state → (step state name).1 = pure name)
    (kept : ∀ state name, holds state → holds (step state name).2)
    (names : List String) (done : Entries Value) {state : σ} (start : holds state) :
    (inTurn step names done state).1 =
      (names.mapM pure).map fun stages => Entries.putAll done (stages.map entry) := by
  induction names generalizing done state with
  | nil => rfl
  | cons name rest ih =>
      have first := outcome state name start
      have next := kept state name start
      rw [List.mapM_cons, inTurn, ← first]
      generalize step state name = result at next
      obtain ⟨error | stage, after⟩ := result
      · rfl
      · dsimp only at next ⊢
        rw [ih _ next]
        generalize rest.mapM pure = others
        obtain error | stages := others <;> rfl

theorem inTurn_kept {holds : σ → Prop}
    (kept : ∀ state name, holds state → holds (step state name).2)
    (names : List String) (done : Entries Value) {state : σ} (start : holds state) :
    holds (inTurn step names done state).2 := by
  induction names generalizing done state with
  | nil => exact start
  | cons name rest ih =>
      have next := kept state name start
      rw [inTurn]
      generalize step state name = result at next
      obtain ⟨error | stage, after⟩ := result
      · exact next
      · exact ih _ next

/-- If each stage resolved is recorded, so are the stages before the first failure. -/
theorem inTurn_records {holds : σ → Prop} {pure : String → Except StageError Stage}
    (outcome : ∀ state name, holds state → (step state name).1 = pure name)
    (kept : ∀ state name, holds state → holds (step state name).2)
    {records : σ → Entries Tracked}
    (recorded : ∀ state name, holds state → records (step state name).2 =
      Entries.putAll (records state) ((succeeding pure [name]).map record))
    (names : List String) (done : Entries Value) {state : σ} (start : holds state) :
    records (inTurn step names done state).2 =
      Entries.putAll (records state) ((succeeding pure names).map record) := by
  induction names generalizing done state with
  | nil => rfl
  | cons name rest ih =>
      have first := outcome state name start
      have next := kept state name start
      have here := recorded state name start
      rw [inTurn, succeeding, ← first]
      rw [succeeding, ← first] at here
      generalize step state name = result at next here
      obtain ⟨error | stage, after⟩ := result
      · exact here
      · dsimp only at next here ⊢
        rw [ih _ next, here, List.map_cons, List.map_cons, succeeding, List.map_nil,
          Entries.putAll_cons, Entries.putAll_cons, Entries.putAll_nil]

end Stage

end StageTemplates
