import StageTemplates.Proofs.StageNames

set_option autoImplicit false

/-!
Asking whether there is a stage of a name, and resolving the stage of that name: whatever was asked
before, both take the name apart alike and come to the same verdict on it.
-/
namespace StageTemplates

theorem Definition.name_unused (definition : Definition) :
    definition.unused.name = definition.name := by
  cases definition <;> rfl

namespace Resolver

/-- The states that a resolver comes to: made from a document, then asked anything, or given a
record for a stage. -/
inductive Reachable (fs : FileSystem) : Resolver → Prop
  | built {current : Option String} {wdir : String} {document : Value} {style : Style}
      {resolver : Resolver} {reads : List String}
      (given : ofDocument? fs current wdir document style = (.ok resolver, reads))
      (distinct : document.Distinct) : Reachable fs resolver
  | asked {resolver : Resolver} (reachable : Reachable fs resolver) (query : Query) :
      Reachable fs (resolver.ask query).2
  | tracked {resolver : Resolver} (reachable : Reachable fs resolver) (name : String)
      (tracked : Tracked) : Reachable fs (resolver.track name tracked)

theorem named_unusedOf_iff {definitions : Entries Definition} :
    Named (unusedOf definitions) ↔ Named definitions := by
  have names : Entries.keys (unusedOf definitions) = Entries.keys definitions := by
    rw [Entries.keys, unusedOf, List.map_map]
    rfl
  constructor
  · rintro ⟨distinct, named⟩
    rw [names] at distinct
    refine ⟨distinct, fun entry member => ?_⟩
    have own := named (entry.1, entry.2.unused) (List.mem_map_of_mem member)
    rwa [Definition.name_unused] at own
  · rintro ⟨distinct, named⟩
    refine ⟨names ▸ distinct, fun entry member => ?_⟩
    obtain ⟨old, present, rfl⟩ := List.mem_map.mp member
    rw [Definition.name_unused]
    exact named old present

theorem Kept.named {before after : Resolver} (kept : Kept before after)
    (named : Named before.definitions) : Named after.definitions := by
  rw [← named_unusedOf_iff, kept.definitions, named_unusedOf_iff]
  exact named

variable {fs : FileSystem} {resolver : Resolver}

/-- In every state a resolver is settled, with its definitions under their names. -/
theorem Reachable.settled_named (reachable : Reachable fs resolver) :
    resolver.Settled ∧ Named resolver.definitions := by
  induction reachable with
  | built given distinct =>
      have fresh := fresh_ofDocument? given distinct
      exact ⟨fresh.settled, fresh.isNamed⟩
  | asked reachable query ih =>
      have kept := (ask_served ih.1 query).kept
      exact ⟨kept.settled, kept.named ih.2⟩
  | tracked reachable name tracked ih =>
      have kept := (Kept.refl ih.1).track name tracked
      exact ⟨kept.settled, kept.named ih.2⟩

section Verdict

variable {definitions : Entries Definition} {context : Context} {name : String}

/-- If it cannot be said whether there is a stage, it cannot be resolved for the same reason. -/
theorem stageIn_of_hasIn_error {error : ResolveError}
    (failed : hasIn definitions context name = .error error) :
    stageIn definitions context name = .error (.resolve error) := by
  unfold hasIn at failed
  unfold stageIn
  split at failed
  · cases failed
  · next template key _ _ =>
      have members := map_eq_error_iff.mp failed
      rw [Foreach.namedIn, members]
  · cases failed

theorem stageIn_of_hasIn_false (absent : hasIn definitions context name = .ok false) :
    stageIn definitions context name = .error (.notFound (.stage name)) := by
  unfold hasIn at absent
  unfold stageIn
  split at absent
  · cases absent
  · next template key _ _ =>
      obtain ⟨members, reached, without⟩ := map_eq_ok_iff.mp absent
      rw [Foreach.namedIn, reached]
      dsimp only
      rw [without]
      rfl
  · rfl

/-- A stage has the name that it was asked for, without an `@` that no key follows. -/
theorem Named.name_of_stageIn (named : Named definitions) {stage : Stage}
    (given : stageIn definitions context name = .ok stage) :
    name = stage.name ∨ name = stage.name ++ "@" := by
  unfold stageIn at given
  split at given
  · next written found whole =>
      have resolved := Foreach.ok_of_mapError_ok given
      have own : written.name = (splitName name).1 := named.named _ (Entries.mem_of_value? found)
      have called : stage.name = (splitName name).1 :=
        (Entry.checkedOutcome_name resolved).trans own
      have parts : splitName name = (stage.name, none) := Prod.ext called.symm whole
      exact (splitName_eq_none_iff.mp parts).imp And.left id
  · next template key found part =>
      obtain ⟨members, -, -, resolved⟩ := Foreach.namedIn_eq_ok given
      have own : template.name = (splitName name).1 := named.named _ (Entries.mem_of_value? found)
      have parts : splitName name = (template.name, some key) := Prod.ext own.symm part
      rw [Foreach.stageOf_name resolved]
      exact Or.inl (splitName_eq_some_iff.mp parts).1
  · cases given

end Verdict

/-- In every state of a resolver, asking for a stage and resolving it agree on every name. If asking
fails, resolving fails with the same error; where there is none, it is not found, under the name as
given; and where there is one, it is never missing, and once resolved it is recorded under the name
that it is answered with. Asking first makes no difference. -/
theorem hasStage_agrees_resolveOne (reachable : Reachable fs resolver) (name : String) :
    let known := (resolver.hasStage name).1
    let resolved := resolver.resolveOne name
    (∀ error, known = .error error → resolved.1 = .error (.resolve error)) ∧
    (known = .ok false → ∃ missing, resolved.1 = .error (.notFound missing) ∧
      missing.message = "Could not find '" ++ name ++ "'") ∧
    (known = .ok true → (∀ missing, resolved.1 ≠ .error (.notFound missing)) ∧
      ∀ stage, resolved.1 = .ok stage →
        resolved.2.tracked = Entries.put stage.name stage.tracked resolver.tracked ∧
        (name = stage.name ∨ name = stage.name ++ "@")) ∧
    ((resolver.hasStage name).2.resolveOne name).1 = resolved.1 := by
  intro known resolved
  obtain ⟨settled, named⟩ := reachable.settled_named
  have asking := hasStage_served settled name
  have resolving := resolveOne_served settled name
  have verdict : known = hasIn resolver.definitions resolver.context name := asking.answer
  have outcome : resolved.1 = stageIn resolver.definitions resolver.context name :=
    resolving.answer
  rw [verdict, outcome]
  refine ⟨fun error failed => stageIn_of_hasIn_error failed, fun absent => ?_, fun present => ?_,
    ?_⟩
  · exact ⟨.stage name, stageIn_of_hasIn_false absent, rfl⟩
  · refine ⟨fun missing failed => ?_, fun stage given => ?_⟩
    · have absent := stageIn_notFound_iff.mp ⟨missing, failed⟩
      rw [present] at absent
      cases absent
    · refine ⟨?_, named.name_of_stageIn given⟩
      have records := resolving.tracked
      rw [succeeding, given] at records
      exact records
  · rw [(resolveOne_served asking.kept.settled name).answer, asking.kept.stageIn]

/-- A document with a group of one member, and a group of which the members cannot be told. -/
def offices : Value :=
  .dict [("stages", .dict [
    ("train", .dict [("foreach", .list [.string "us"]), ("do", .dict [("cmd", .string "run")])]),
    ("lost", .dict [("foreach", .string "$\x7boffices\x7d"), ("do", .dict [])])])]

def officesResolver : Resolver where
  wdir := ""
  path := documentFile
  context := {}
  definitions := [
    ("train", .foreach { name := "train", iterable := .list [.string "us"],
                         body := [("cmd", .string "run")], path := documentFile }),
    ("lost", .foreach { name := "lost", iterable := .string "$\x7boffices\x7d", body := [],
                        path := documentFile })]

theorem offices_built :
    ofDocument? noFiles (some "/") "" offices {} = (.ok officesResolver, []) := by
  rw [ofDocument?, documentPath]
  rfl

/-- After the names could not be listed, and after a record was noted by hand. -/
theorem offices_hasStage_agrees :
    let used := (officesResolver.ask .stageNames).2.track "train@us" { keys := ["item"] }
    (∃ error, (used.hasStage "lost@us").1 = .error error ∧
      (used.resolveOne "lost@us").1 = .error (.resolve error)) ∧
    (∃ missing, (used.resolveOne "train@fr").1 = .error (.notFound missing) ∧
      missing.message = "Could not find 'train@fr'") ∧
    ∃ stage, (used.resolveOne "train@us").1 = .ok stage ∧
      (used.resolveOne "train@us").2.tracked =
        Entries.put stage.name stage.tracked used.tracked ∧
      ("train@us" = stage.name ∨ "train@us" = stage.name ++ "@") := by
  intro used
  have reachable : Reachable noFiles used :=
    ((Reachable.built offices_built (by decide)).asked .stageNames).tracked "train@us" _
  have failed : (used.hasStage "lost@us").1 = .error ⟨placeOf ["stages", "lost", "foreach"],
      documentFile, .context (.keyNotInContext "offices")⟩ := by cbv
  have absent : (used.hasStage "train@fr").1 = .ok false := by cbv
  have present : (used.hasStage "train@us").1 = .ok true := by cbv
  have stage : (used.resolveOne "train@us").1 =
      .ok ⟨"train@us", [("cmd", .string "run")], {}⟩ := by cbv
  have lost := (hasStage_agrees_resolveOne reachable "lost@us").1 _ failed
  obtain ⟨-, missing, -⟩ := hasStage_agrees_resolveOne reachable "train@fr"
  obtain ⟨-, -, recorded, -⟩ := hasStage_agrees_resolveOne reachable "train@us"
  exact ⟨⟨_, failed, lost⟩, missing absent, _, stage, (recorded present).2 _ stage⟩

end Resolver

end StageTemplates
