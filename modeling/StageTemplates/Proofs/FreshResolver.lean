import StageTemplates.Proofs.LoadedVariables
import StageTemplates.Proofs.ResolverOutcome

set_option autoImplicit false

/-!
What a resolver is when it was just made from a document.
-/
namespace StageTemplates

/-- A definition as read from a document has its name, and was not used. -/
theorem Definition.ofBody?_named {name path : String} {body : Value} {definition : Definition}
    (given : ofBody? name body path = .ok definition) :
    definition.name = name ∧ definition.unused = definition := by
  unfold ofBody? at given
  dsimp only at given
  split at given
  · split at given
    · cases given
      exact ⟨rfl, rfl⟩
    · split at given
      · cases given
        exact ⟨rfl, rfl⟩
      · cases given
      · cases given
  · cases given

namespace Resolver

theorem definitionsOf?_named {path : String} {bodies : List (String × Value)}
    {definitions : Entries Definition} (given : definitionsOf? path bodies = .ok definitions) :
    Entries.keys definitions = Entries.keys bodies ∧
      ∀ entry ∈ definitions, entry.2.name = entry.1 ∧ entry.2.unused = entry.2 := by
  induction bodies generalizing definitions with
  | nil =>
      cases given
      exact ⟨rfl, by simp⟩
  | cons first rest ih =>
      obtain ⟨name, body⟩ := first
      rw [definitionsOf?] at given
      split at given
      · cases given
      · next definition here =>
          split at given
          · cases given
          · next others later =>
              cases given
              obtain ⟨names, each⟩ := ih later
              refine ⟨?_, List.forall_mem_cons.mpr ⟨Definition.ofBody?_named here, each⟩⟩
              rw [Entries.keys_cons, Entries.keys_cons, names]

theorem distinct_sections? {path : String} {document : Value} {sections : Entries Value}
    (distinct : document.Distinct) (given : sections? path document = .ok sections) :
    (Value.dict sections).Distinct := by
  unfold sections? at given
  split at given
  · cases given
    exact distinct
  · cases given
    exact Value.distinct_nothing
  · cases given

theorem distinct_varsItems? {path : String} {document : Entries Value} {items : List Value}
    (distinct : (Value.dict document).Distinct) (given : varsItems? path document = .ok items) :
    ∀ item ∈ items, item.Distinct := by
  unfold varsItems? at given
  dsimp only at given
  split at given
  · cases given
  · next chosen there =>
      split at given
      · cases given
      · cases given
        split at there
        · cases there
          simp
        · cases there
          simp
        · next found =>
            cases there
            exact (Value.distinct_list _).mp (distinct.value? found)
        · cases there

/-- The definitions stand under their names, no name twice, and were not used. -/
theorem stages?_named {path : String} {document : Entries Value}
    {definitions : Entries Definition} (distinct : (Value.dict document).Distinct)
    (given : stages? path document = .ok definitions) :
    (Entries.keys definitions).Nodup ∧
      ∀ entry ∈ definitions, entry.2.name = entry.1 ∧ entry.2.unused = entry.2 := by
  unfold stages? at given
  split at given
  · cases given
    exact ⟨List.nodup_nil, by simp⟩
  · cases given
    exact ⟨List.nodup_nil, by simp⟩
  · next stages found =>
      obtain ⟨names, each⟩ := definitionsOf?_named given
      rw [names]
      exact ⟨((Value.distinct_dict stages).mp (distinct.value? found)).1, each⟩
  · cases given

/-- A resolver that was not asked anything. -/
structure Fresh (resolver : Resolver) : Prop where
  idle : resolver.context.Idle
  distinct : (Entries.keys resolver.definitions).Nodup
  named : ∀ entry ∈ resolver.definitions, entry.2.name = entry.1
  unused : ∀ entry ∈ resolver.definitions, entry.2.unused = entry.2
  tracked : resolver.tracked = []

theorem Fresh.settled {resolver : Resolver} (fresh : resolver.Fresh) : resolver.Settled := by
  refine ⟨fresh.idle.untracked, fresh.distinct, ?_⟩
  intro entry member
  rw [← fresh.unused entry member]
  exact Definition.settled_unused _ _ entry.2

theorem fresh_ofDocument? {fs : FileSystem} {current : Option String} {wdir : String}
    {document : Value} {style : Style} {resolver : Resolver} {reads : List String}
    (built : ofDocument? fs current wdir document style = (.ok resolver, reads))
    (distinct : document.Distinct) : resolver.Fresh := by
  unfold ofDocument? at built
  dsimp only at built
  split at built
  · cases built
  · next sections there =>
      have whole := distinct_sections? distinct there
      split at built
      · cases built
      · next items found =>
          have idle : ({ style } : Context).Idle := ⟨rfl, Value.distinct_nothing⟩
          have loaded := idle.loadVars fs (distinct_varsItems? whole found)
            (relativeFolder wdir current) none standardVariables
          split at built
          · cases built
          · split at built
            · cases built
            · next definitions given =>
                obtain ⟨names, each⟩ := stages?_named whole given
                cases built
                exact ⟨loaded, names, fun entry member => (each entry member).1,
                  fun entry member => (each entry member).2, rfl⟩

/-- No files at all. -/
def noFiles : FileSystem := ⟨fun _ => false, fun _ => false, fun _ => .error ""⟩

theorem documentPath : Path.normalize (Path.join (relativeFolder "" (some "/")) documentFile) =
    documentFile := by decide

end Resolver

end StageTemplates
