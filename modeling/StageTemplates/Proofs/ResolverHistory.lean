import Mathlib.Data.List.Permutation
import StageTemplates.Proofs.FreshResolver

set_option autoImplicit false

/-!
What a resolver was asked before makes no difference to its answers, only to its record of what was
read for each stage.
-/
namespace StageTemplates

/-- What a resolver can be asked. -/
inductive Query where
  | hasStage (name : String)
  | stageNames
  | resolveOne (name : String)
  | resolve

inductive Answer where
  | known (outcome : Except ResolveError Bool)
  | names (outcome : Except ResolveError (List String))
  | stage (outcome : Except StageError Stage)
  | document (outcome : Except StageError Value)

/-- The names of the stages that an answer holds. A failed one holds none. -/
def Answer.stages : Answer → List String
  | stage (.ok resolved) => [resolved.name]
  | document (.ok (.dict [(_, .dict stages)])) => Entries.keys stages
  | _ => []

def Answer.failed : Answer → Bool
  | known (.error _) => true
  | names (.error _) => true
  | stage (.error _) => true
  | document (.error _) => true
  | _ => false

namespace Resolver

def ask (resolver : Resolver) (query : Query) : Answer × Resolver :=
  match query with
  | .hasStage name =>
      let (outcome, resolver) := resolver.hasStage name
      (.known outcome, resolver)
  | .stageNames =>
      let (outcome, resolver) := resolver.stageNames
      (.names outcome, resolver)
  | .resolveOne name =>
      let (outcome, resolver) := resolver.resolveOne name
      (.stage outcome, resolver)
  | .resolve =>
      let (outcome, resolver) := resolver.resolve
      (.document outcome, resolver)

/-- The resolver after queries, one after the other. -/
def askAll (resolver : Resolver) (queries : List Query) : Resolver :=
  queries.foldl (fun resolver query => (resolver.ask query).2) resolver

/-- The answer that the definitions and the variables give. -/
def answerIn (definitions : Entries Definition) (context : Context) : Query → Answer
  | .hasStage name => .known (hasIn definitions context name)
  | .stageNames => .names (namesIn definitions context)
  | .resolveOne name => .stage (stageIn definitions context name)
  | .resolve => .document (documentIn definitions context)

/-- The stages that a query resolves, those before a failure included. -/
def resolvedIn (definitions : Entries Definition) (context : Context) : Query → List Stage
  | .hasStage _ => []
  | .stageNames => []
  | .resolveOne name => succeeding (stageIn definitions context) [name]
  | .resolve => stagesIn definitions context

variable {resolver : Resolver}

theorem ask_served (settled : resolver.Settled) (query : Query) :
    Served resolver (resolver.ask query) (answerIn resolver.definitions resolver.context query)
      (resolvedIn resolver.definitions resolver.context query) := by
  cases query with
  | hasStage name => exact (hasStage_served settled name).map Answer.known
  | stageNames => exact (stageNames_served settled).map Answer.names
  | resolveOne name => exact (resolveOne_served settled name).map Answer.stage
  | resolve => exact (resolve_served settled).map Answer.document

theorem Kept.documentIn {before after : Resolver} (kept : Kept before after) :
    Resolver.documentIn after.definitions after.context =
      Resolver.documentIn before.definitions before.context := by
  rw [Resolver.documentIn, kept.namesIn, funext kept.stageIn]
  rfl

theorem Kept.answerIn {before after : Resolver} (kept : Kept before after) (query : Query) :
    Resolver.answerIn after.definitions after.context query =
      Resolver.answerIn before.definitions before.context query := by
  cases query with
  | hasStage name => exact congrArg Answer.known (kept.hasIn name)
  | stageNames => exact congrArg Answer.names kept.namesIn
  | resolveOne name => exact congrArg Answer.stage (kept.stageIn name)
  | resolve => exact congrArg Answer.document kept.documentIn

theorem Kept.resolvedIn {before after : Resolver} (kept : Kept before after) (query : Query) :
    Resolver.resolvedIn after.definitions after.context query =
      Resolver.resolvedIn before.definitions before.context query := by
  cases query with
  | hasStage name => rfl
  | stageNames => rfl
  | resolveOne name =>
      rw [Resolver.resolvedIn, funext kept.stageIn]
      rfl
  | resolve =>
      rw [Resolver.resolvedIn, stagesIn, kept.namesIn, funext kept.stageIn]
      rfl

theorem askAll_kept (settled : resolver.Settled) (history : List Query) :
    Kept resolver (resolver.askAll history) := by
  induction history generalizing resolver with
  | nil => exact Kept.refl settled
  | cons query rest ih =>
      have first := (ask_served settled query).kept
      exact first.trans (ih first.settled)

/-- The record of a stage is that of the last query which resolved it. -/
theorem askAll_tracked (settled : resolver.Settled) (history : List Query) (name : String) :
    Entries.value? name (resolver.askAll history).tracked =
      (history.reverse.findSome? fun query => Entries.value? name (Entries.ofList
        ((resolvedIn resolver.definitions resolver.context query).map Stage.record))).or
          (Entries.value? name resolver.tracked) := by
  induction history generalizing resolver with
  | nil => rfl
  | cons query rest ih =>
      have first := ask_served settled query
      have later := ih first.kept.settled
      rw [funext first.kept.resolvedIn, first.tracked, Entries.value?_putAll] at later
      rw [List.reverse_cons, List.findSome?_append, List.findSome?_singleton, Option.or_assoc]
      exact later

/-- A query that succeeds records the stages that it answers with. -/
theorem mem_stages_answerIn {definitions : Entries Definition} {context : Context}
    {query : Query} (success : (answerIn definitions context query).failed = false)
    (name : String) :
    name ∈ (resolvedIn definitions context query).map Stage.name ↔
      name ∈ (answerIn definitions context query).stages := by
  cases query with
  | hasStage asked =>
      rw [answerIn]
      cases hasIn definitions context asked <;> rfl
  | stageNames =>
      rw [answerIn]
      cases namesIn definitions context <;> rfl
  | resolveOne asked =>
      rw [answerIn, resolvedIn, succeeding] at *
      cases found : stageIn definitions context asked with
      | error error =>
          rw [found] at success
          cases success
      | ok stage => rfl
  | resolve =>
      rw [answerIn, documentIn] at success ⊢
      rw [resolvedIn, stagesIn]
      cases listed : namesIn definitions context with
      | error error =>
          rw [listed] at success
          cases success
      | ok names =>
          rw [listed] at success
          dsimp only at success ⊢
          cases given : names.mapM (stageIn definitions context) with
          | error error =>
              rw [given] at success
              cases success
          | ok stages =>
              rw [succeeding_of_ok (mapM_eq_ok_iff.mp given)]
              show _ ↔ name ∈ Entries.keys (Entries.ofList (stages.map Stage.entry))
              rw [Entries.mem_keys_ofList, Stage.keys_map_entry]

/-- A query that fails records nothing, unless it was for all stages. -/
theorem resolvedIn_of_failed {definitions : Entries Definition} {context : Context}
    {query : Query} (failed : (answerIn definitions context query).failed = true)
    (one : query ≠ .resolve) : resolvedIn definitions context query = [] := by
  cases query with
  | hasStage asked => rfl
  | stageNames => rfl
  | resolveOne asked =>
      rw [answerIn] at failed
      rw [resolvedIn, succeeding]
      cases found : stageIn definitions context asked with
      | error error => rfl
      | ok stage =>
          rw [found] at failed
          cases failed
  | resolve => exact absurd rfl one

/-- The first query leaves the records of the stages that it resolves, and no others. -/
theorem Fresh.tracked_ask (fresh : resolver.Fresh) (query : Query) :
    (resolver.ask query).2.tracked = Entries.ofList
      ((resolvedIn resolver.definitions resolver.context query).map Stage.record) := by
  rw [(ask_served fresh.settled query).tracked, fresh.tracked]
  rfl

/-- After any queries, failed ones included, a resolver has the variables it began with, and answers
each query as it would have at first. For a stage it has the record of the last query that resolved
it, as that query makes it when asked at first. A query records the stages it answers with; if it
fails, it records none, or for all stages together those before the failure, none if the names
cannot be told. All stages together are those of the names in turn, or the failure of the names or
of the first that fails. -/
theorem answer_after_history {fs : FileSystem} {current : Option String} {wdir : String}
    {document : Value} {style : Style} {resolver : Resolver} {reads : List String}
    (built : ofDocument? fs current wdir document style = (.ok resolver, reads))
    (distinct : document.Distinct) (history : List Query) :
    let used := resolver.askAll history
    (∀ query, (used.ask query).1 = (resolver.ask query).1) ∧
    used.context = resolver.context ∧
    (∀ name, Entries.value? name used.tracked =
      history.reverse.findSome? fun query =>
        Entries.value? name (resolver.ask query).2.tracked) ∧
    (∀ query, (resolver.ask query).1.failed = false → ∀ name,
      name ∈ Entries.keys (resolver.ask query).2.tracked ↔
        name ∈ (resolver.ask query).1.stages) ∧
    (∀ query, (resolver.ask query).1.failed = true → query ≠ .resolve →
      (resolver.ask query).2.tracked = []) ∧
    (∀ names, resolver.stageNames.1 = .ok names → resolver.resolve.2.tracked = Entries.ofList
      ((succeeding (fun name => (resolver.resolveOne name).1) names).map Stage.record)) ∧
    (∀ cause, resolver.stageNames.1 = .error cause → resolver.resolve.2.tracked = []) ∧
    (∀ value, used.resolve.1 = .ok value ↔ ∃ names stages, resolver.stageNames.1 = .ok names ∧
      List.Forall₂ (fun name stage => (resolver.resolveOne name).1 = .ok stage) names stages ∧
      value = .dict [(stagesSection, .dict (Entries.ofList (stages.map Stage.entry)))]) ∧
    (∀ error, used.resolve.1 = .error error ↔
      (∃ cause, resolver.stageNames.1 = .error cause ∧ error = .resolve cause) ∨
      ∃ before name after, resolver.stageNames.1 = .ok (before ++ name :: after) ∧
        (∀ earlier ∈ before, ∃ stage, (resolver.resolveOne earlier).1 = .ok stage) ∧
        (resolver.resolveOne name).1 = .error error) := by
  intro used
  have fresh := fresh_ofDocument? built distinct
  have settled := fresh.settled
  have kept := askAll_kept settled history
  have one : (fun name => (resolver.resolveOne name).1) =
      stageIn resolver.definitions resolver.context :=
    funext fun name => (resolveOne_served settled name).answer
  have all : used.resolve.1 = documentIn resolver.definitions resolver.context :=
    (resolve_served kept.settled).answer.trans kept.documentIn
  refine ⟨?_, kept.context, ?_, ?_, ?_, ?_, ?_, ?_, ?_⟩
  · intro query
    rw [(ask_served kept.settled query).answer, kept.answerIn, (ask_served settled query).answer]
  · intro name
    rw [askAll_tracked settled, fresh.tracked, Entries.value?_nil, Option.or_none]
    simp only [fresh.tracked_ask]
  · intro query success name
    rw [(ask_served settled query).answer] at success ⊢
    rw [fresh.tracked_ask, Entries.mem_keys_ofList, Stage.keys_map_record,
      mem_stages_answerIn success]
  · intro query failed other
    rw [(ask_served settled query).answer] at failed
    rw [fresh.tracked_ask, resolvedIn_of_failed failed other]
    rfl
  · intro names listed
    rw [(stageNames_served settled).answer] at listed
    have noted := fresh.tracked_ask .resolve
    rw [resolvedIn, stagesIn, listed, ← one] at noted
    exact noted
  · intro cause failed
    rw [(stageNames_served settled).answer] at failed
    have noted := fresh.tracked_ask .resolve
    rw [resolvedIn, stagesIn, failed] at noted
    exact noted
  · intro value
    rw [all, (stageNames_served settled).answer]
    simp only [(resolveOne_served settled _).answer]
    exact documentIn_eq_ok_iff
  · intro error
    rw [all, (stageNames_served settled).answer]
    simp only [(resolveOne_served settled _).answer]
    exact documentIn_eq_error_iff

/-- A document in which a member of `a` shares the name `a@b` with a stage that is written out. -/
def twins : Value :=
  .dict [("stages", .dict [
    ("a", .dict [("foreach", .list [.string "b"]), ("do", .dict [("cmd", .string "${item}")])]),
    ("a@b", .dict [("cmd", .string "plain")]),
    ("z", .dict [("cmd", .string "${missing}")])])]

def twinsResolver : Resolver where
  wdir := ""
  path := documentFile
  context := {}
  definitions := [
    ("a", .foreach { name := "a", iterable := .list [.string "b"],
                     body := [("cmd", .string "${item}")], path := documentFile }),
    ("a@b", .entry { name := "a@b", fields := [("cmd", .string "plain")], path := documentFile }),
    ("z", .entry { name := "z", fields := [("cmd", .string "${missing}")], path := documentFile })]

theorem twins_built : ofDocument? noFiles (some "/") "" twins {} = (.ok twinsResolver, []) := by
  rw [ofDocument?, documentPath]
  rfl

theorem twins_after_history :
    (∀ query, ((twinsResolver.askAll [.resolveOne "a@b@", .resolve]).ask query).1 =
      (twinsResolver.ask query).1) ∧
    Entries.value? "a@b" (twinsResolver.askAll [.resolveOne "a@b@", .resolve]).tracked =
      some ⟨["item"], []⟩ := by
  obtain ⟨answers, -, records, -⟩ := answer_after_history twins_built (by decide)
    [.resolveOne "a@b@", .resolve]
  refine ⟨answers, ?_⟩
  rw [records]
  cbv

/-- A query that fails may replace the record of a stage that one before it answered with. -/
theorem not_record_of_last_answer :
    ¬ ∀ (fs : FileSystem) (current : Option String) (wdir : String) (document : Value)
        (style : Style) (resolver : Resolver) (reads : List String),
      ofDocument? fs current wdir document style = (.ok resolver, reads) → document.Distinct →
      ∀ (before : List Query) (query : Query) (after : List Query) (name : String),
        name ∈ (resolver.ask query).1.stages →
        (∀ later ∈ after, name ∉ (resolver.ask later).1.stages) →
        Entries.value? name (resolver.askAll (before ++ query :: after)).tracked =
          Entries.value? name (resolver.ask query).2.tracked := by
  intro claimed
  have answered : (twinsResolver.ask (.resolveOne "a@b@")).1.stages = ["a@b"] := by cbv
  have failed : (twinsResolver.ask .resolve).1.stages = [] := by cbv
  have first : Entries.value? "a@b" (twinsResolver.ask (.resolveOne "a@b@")).2.tracked =
      some ⟨[], []⟩ := by cbv
  have last : Entries.value? "a@b"
      (twinsResolver.askAll [.resolveOne "a@b@", .resolve]).tracked = some ⟨["item"], []⟩ := by cbv
  have same := claimed noFiles (some "/") "" twins {} twinsResolver [] twins_built (by decide) []
    (.resolveOne "a@b@") [.resolve] "a@b" (by simp [answered]) (by simp [failed])
  rw [first, List.nil_append, last] at same
  cases same

end Resolver

end StageTemplates
