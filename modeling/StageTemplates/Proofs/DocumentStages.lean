import StageTemplates.Proofs.TemplateOutcome
import StageTemplates.Stage.Resolver

set_option autoImplicit false

/-!
The stages of a document, as functions of its definitions and variables: the stage under a name,
whether there is one, the names of all, and all of them together.
-/
namespace StageTemplates

namespace Definition

/-- The definition as before any use. -/
def unused : Definition → Definition
  | entry written => .entry written
  | foreach template => .foreach template.unused

variable (data : Entries Node) (style : Style)

/-- What a template keeps is what it was made from. -/
def Settled : Definition → Prop
  | entry _ => True
  | foreach template => template.Settled data style

/-- The names of the stages of a definition that stands under a name. -/
def namesIn : String × Definition → Except ResolveError (List String)
  | (name, entry _) => .ok [name]
  | (_, foreach template) =>
      (template.membersIn data style).map fun members =>
        (Entries.keys (Foreach.keyed members)).map (memberName template.name)

theorem namesIn_unused (name : String) (definition : Definition) :
    namesIn data style (name, definition.unused) = namesIn data style (name, definition) := by
  cases definition <;> rfl

theorem settled_unused (definition : Definition) : definition.unused.Settled data style := by
  cases definition with
  | entry written => exact trivial
  | foreach template => exact Foreach.settled_unused template data style

end Definition

/-- Definitions as before any use. -/
def unusedOf (definitions : Entries Definition) : Entries Definition :=
  definitions.map fun entry => (entry.1, entry.2.unused)

theorem value?_unusedOf (name : String) (definitions : Entries Definition) :
    Entries.value? name (unusedOf definitions) =
      (Entries.value? name definitions).map Definition.unused := by
  induction definitions with
  | nil => rfl
  | cons entry rest ih =>
      obtain ⟨key, definition⟩ := entry
      show Entries.value? name ((key, definition.unused) :: unusedOf rest) = _
      by_cases same : key = name
      · simp [Entries.value?, same]
      · rw [Entries.value?_cons_of_ne same, Entries.value?_cons_of_ne same, ih]

theorem value?_unusedOf_of_found {name : String} {definition : Definition}
    {definitions : Entries Definition}
    (found : Entries.value? name definitions = some definition) :
    Entries.value? name (unusedOf definitions) = some definition.unused := by
  rw [value?_unusedOf, found]
  rfl

theorem unusedOf_put (name : String) (definition : Definition)
    (definitions : Entries Definition) :
    unusedOf (Entries.put name definition definitions) =
      Entries.put name definition.unused (unusedOf definitions) := by
  induction definitions with
  | nil => rfl
  | cons entry rest ih =>
      obtain ⟨key, old⟩ := entry
      by_cases same : key = name
      · simp [unusedOf, Entries.put, same]
      · simp only [unusedOf, Entries.put, same, if_false, List.map_cons] at ih ⊢
        rw [ih]

namespace Foreach

/-- The stage of a member under its whole name. -/
def namedIn (template : Foreach) (data : Entries Node) (style : Style) (key name : String) :
    Except StageError Stage :=
  match template.membersIn data style with
  | .error error => .error (.resolve error)
  | .ok members =>
      if Entries.has key (keyed members) then template.stageOf data style members key
      else .error (.notFound (.stage name))

theorem namedIn_eq_ok {template : Foreach} {data : Entries Node} {style : Style}
    {key name : String} {stage : Stage} (given : template.namedIn data style key name = .ok stage) :
    ∃ members, template.membersIn data style = .ok members ∧
      Entries.has key (keyed members) = true ∧
      template.stageOf data style members key = .ok stage := by
  unfold namedIn at given
  split at given
  · cases given
  · next members reached =>
      split at given
      · next present => exact ⟨members, reached, present, given⟩
      · cases given

end Foreach

namespace Resolver

/-- The stage that the definitions and the variables give under a name. -/
def stageIn (definitions : Entries Definition) (context : Context) (name : String) :
    Except StageError Stage :=
  match Entries.value? (splitName name).1 definitions, (splitName name).2 with
  | some (.entry entry), none =>
      (entry.checkedOutcome context.data context.style).mapError .resolve
  | some (.foreach template), some key => template.namedIn context.data context.style key name
  | _, _ => .error (.notFound (.stage name))

/-- Whether the definitions and the variables give a stage under a name. -/
def hasIn (definitions : Entries Definition) (context : Context) (name : String) :
    Except ResolveError Bool :=
  match Entries.value? (splitName name).1 definitions, (splitName name).2 with
  | some (.entry _), none => .ok true
  | some (.foreach template), some key =>
      (template.membersIn context.data context.style).map fun members =>
        Entries.has key (Foreach.keyed members)
  | _, _ => .ok false

/-- The names of the stages that the definitions and the variables give. -/
def namesIn (definitions : Entries Definition) (context : Context) :
    Except ResolveError (List String) :=
  (definitions.mapM (Definition.namesIn context.data context.style)).map List.flatten

section Unused

variable (definitions : Entries Definition) (context : Context)

theorem stageIn_unusedOf (name : String) :
    stageIn (unusedOf definitions) context name = stageIn definitions context name := by
  unfold stageIn
  rw [value?_unusedOf]
  rcases Entries.value? (splitName name).1 definitions with _ | ⟨entry | template⟩ <;>
    cases (splitName name).2 <;> rfl

theorem hasIn_unusedOf (name : String) :
    hasIn (unusedOf definitions) context name = hasIn definitions context name := by
  unfold hasIn
  rw [value?_unusedOf]
  rcases Entries.value? (splitName name).1 definitions with _ | ⟨entry | template⟩ <;>
    cases (splitName name).2 <;> rfl

theorem namesIn_unusedOf :
    namesIn (unusedOf definitions) context = namesIn definitions context := by
  unfold namesIn unusedOf
  rw [List.mapM_map]
  simp only [Function.comp_def, Definition.namesIn_unused]

end Unused

/-- The names that one more definition gives come before those of the rest. -/
theorem namesIn_cons (name : String) (definition : Definition) (rest : Entries Definition)
    (context : Context) :
    namesIn ((name, definition) :: rest) context =
      match Definition.namesIn context.data context.style (name, definition) with
      | .error error => .error error
      | .ok first => (namesIn rest context).map (first ++ ·) := by
  unfold namesIn
  cases here : Definition.namesIn context.data context.style (name, definition) with
  | error error => rw [mapM_cons_of_error here, Except.map]
  | ok first =>
      rw [mapM_cons_of_ok here]
      cases rest.mapM (Definition.namesIn context.data context.style) <;> rfl

/-- A stage is missing where there is none. -/
theorem stageIn_notFound_iff {definitions : Entries Definition} {context : Context}
    {name : String} :
    (∃ missing, stageIn definitions context name = .error (.notFound missing)) ↔
      hasIn definitions context name = .ok false := by
  unfold stageIn hasIn
  rcases Entries.value? (splitName name).1 definitions with _ | ⟨entry | template⟩ <;>
    rcases (splitName name).2 with _ | key
  · simp
  · simp
  · dsimp only
    cases entry.checkedOutcome context.data context.style <;> simp [Except.mapError]
  · simp
  · simp
  · dsimp only
    rw [Foreach.namedIn]
    cases template.membersIn context.data context.style with
    | error error => simp [Except.map]
    | ok members =>
        cases present : Entries.has key (Foreach.keyed members) with
        | false => simp [Except.map, present]
        | true =>
            have found := template.stageOf_ne_notFound present context.data context.style
            simpa [Except.map, present] using found

/-- A stage that is given is there. -/
theorem hasIn_of_stageIn {definitions : Entries Definition} {context : Context} {name : String}
    {stage : Stage} (given : stageIn definitions context name = .ok stage) :
    hasIn definitions context name = .ok true := by
  unfold stageIn at given
  unfold hasIn
  split at given
  · rfl
  · next template key _ _ =>
      obtain ⟨members, reached, present, -⟩ := Foreach.namedIn_eq_ok given
      rw [reached, Except.map, present]
  · cases given

/-- The document that the definitions and the variables give. -/
def documentIn (definitions : Entries Definition) (context : Context) :
    Except StageError Value :=
  match namesIn definitions context with
  | .error error => .error (.resolve error)
  | .ok names =>
      (names.mapM (stageIn definitions context)).map fun stages =>
        .dict [(stagesSection, .dict (Entries.ofList (stages.map Stage.entry)))]

/-- The stages resolved on the way to the document, all of them or those before a failure. -/
def stagesIn (definitions : Entries Definition) (context : Context) : List Stage :=
  match namesIn definitions context with
  | .error _ => []
  | .ok names => succeeding (stageIn definitions context) names

theorem documentIn_eq_ok_iff {definitions : Entries Definition} {context : Context}
    {document : Value} :
    documentIn definitions context = .ok document ↔
      ∃ names stages, namesIn definitions context = .ok names ∧
        List.Forall₂ (fun name stage => stageIn definitions context name = .ok stage) names
          stages ∧
        document = .dict [(stagesSection, .dict (Entries.ofList (stages.map Stage.entry)))] := by
  rw [documentIn]
  cases listed : namesIn definitions context with
  | error error =>
      constructor
      · intro impossible
        cases impossible
      · rintro ⟨names, stages, impossible, -⟩
        cases impossible
  | ok names =>
      dsimp only
      rw [map_eq_ok_iff]
      constructor
      · rintro ⟨stages, given, rfl⟩
        exact ⟨names, stages, rfl, mapM_eq_ok_iff.mp given, rfl⟩
      · rintro ⟨_, stages, same, each, rfl⟩
        cases same
        exact ⟨stages, mapM_eq_ok_iff.mpr each, rfl⟩

theorem documentIn_eq_error_iff {definitions : Entries Definition} {context : Context}
    {error : StageError} :
    documentIn definitions context = .error error ↔
      (∃ cause, namesIn definitions context = .error cause ∧ error = .resolve cause) ∨
        ∃ before name after, namesIn definitions context = .ok (before ++ name :: after) ∧
          (∀ earlier ∈ before, ∃ stage, stageIn definitions context earlier = .ok stage) ∧
          stageIn definitions context name = .error error := by
  rw [documentIn]
  cases listed : namesIn definitions context with
  | error cause =>
      constructor
      · intro same
        cases same
        exact Or.inl ⟨cause, rfl, rfl⟩
      · rintro (⟨_, same, rfl⟩ | ⟨before, name, after, impossible, -⟩)
        · cases same
          rfl
        · cases impossible
  | ok names =>
      dsimp only
      rw [map_eq_error_iff, mapM_eq_error_iff]
      constructor
      · rintro ⟨before, name, after, rfl, succeed, failed⟩
        exact Or.inr ⟨before, name, after, rfl, succeed, failed⟩
      · rintro (⟨_, impossible, -⟩ | ⟨before, name, after, same, succeed, failed⟩)
        · cases impossible
        · cases same
          exact ⟨before, name, after, rfl, succeed, failed⟩

end Resolver

end StageTemplates
