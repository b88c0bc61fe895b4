import Mathlib
import StageTemplates.Proofs.MemberStages

set_option autoImplicit false

/-!
Whether a template makes one stage for each element that it runs over. It does unless it runs over a
list of scalars of which two have the same text: these fall together, and the last of them stays.
-/
namespace StageTemplates

namespace Foreach

/-- The elements, each under the key derived for it. -/
def elements : Node → List (String × Node)
  | .dict entries _ => entries
  | .list items _ =>
      if items.any Node.isContainer then items.mapIdx fun index item => (toString index, item)
      else items.map fun item => (item.toValue.text, item)
  | .scalar _ _ => []

section Elements

variable {members : Node}

theorem elements_map_snd (members : Node) : (elements members).map Prod.snd = members.children := by
  cases members with
  | scalar value origin => rfl
  | dict entries origin => rfl
  | list items origin =>
      rw [elements]
      split
      · simp [Node.children, Function.comp_def, List.mapIdx_eq_zipIdx_map]
      · simp [Node.children, Function.comp_def]

/-- Of elements under one key the last stays. -/
theorem keyed_eq_ofList (distinct : members.Distinct) :
    keyed members = Entries.ofList (elements members) := by
  cases members with
  | scalar value origin => rfl
  | dict entries origin =>
      have names := ((Node.distinct_dict entries origin).mp distinct).1
      exact (Entries.ofList_of_nodup names).symm
  | list items origin =>
      rw [keyed, elements]
      split <;> rfl

theorem keys_keyed (distinct : members.Distinct) :
    Entries.keys (keyed members) = (Entries.keys (elements members)).eraseDups := by
  rw [keyed_eq_ofList distinct, Entries.keys_ofList]

theorem keyed_of_nodup (distinct : members.Distinct)
    (apart : (Entries.keys (elements members)).Nodup) : keyed members = elements members := by
  rw [keyed_eq_ofList distinct, Entries.ofList_of_nodup apart]

/-- If no element is lost, all have keys of their own. -/
theorem nodup_of_length_le (distinct : members.Distinct)
    (bound : (elements members).length ≤ (keyed members).length) :
    (Entries.keys (elements members)).Nodup := by
  have apart : (Entries.keys (keyed members)).Nodup := nodup_keys_keyed distinct
  have within : Entries.keys (keyed members) ⊆ Entries.keys (elements members) := by
    rw [keyed_eq_ofList distinct]
    exact fun key => (Entries.mem_keys_ofList key _).mp
  have same : (Entries.keys (keyed members)).Perm (Entries.keys (elements members)) := by
    refine (apart.subperm within).perm_of_length_le ?_
    simpa [Entries.keys] using bound
  exact same.nodup_iff.mp apart

theorem nodup_index_keys (items : List Node) :
    (Entries.keys (items.mapIdx fun index item => (toString index, item))).Nodup := by
  have counted : Entries.keys (items.mapIdx fun index item => (toString index, item)) =
      (List.range items.length).map toString := by
    apply List.ext_getElem <;> simp [Entries.keys]
  rw [counted]
  exact List.nodup_range.map fun _ _ => Nat.repr_inj.mp

/-- Elements have keys of their own unless they are scalars in a list and two have the same text. -/
theorem nodup_keys_elements_iff (distinct : members.Distinct) :
    (Entries.keys (elements members)).Nodup ↔
      members.isDict = true ∨ members.children.any Node.isContainer = true ∨
        (members.children.map fun element => element.toValue.text).Nodup := by
  cases members with
  | scalar value origin => simp [elements, Node.children]
  | dict entries origin =>
      have names := ((Node.distinct_dict entries origin).mp distinct).1
      exact iff_of_true names (Or.inl rfl)
  | list items origin =>
      rw [elements, Node.children]
      split
      · next composite =>
          exact iff_of_true (nodup_index_keys items) (Or.inr (Or.inl composite))
      · next flat =>
          have texts : Entries.keys (items.map fun item => (item.toValue.text, item)) =
              items.map fun item => item.toValue.text := by
            simp [Entries.keys, Function.comp_def]
          rw [texts]
          simp [Node.isDict, flat]

end Elements

/-- While the stage of a member is resolved, `item` stands for the member itself. -/
theorem get?_memberContext (context : Context) (members : Node) (key : String) (member : Node) :
    (memberContext context members key member).get? itemName = some member := by
  have apart : itemName ≠ keyName := by decide
  unfold memberContext Context.get?
  dsimp only
  split
  · rw [Entries.value?_put_of_ne apart, Entries.value?_put_self]
  · exact Entries.value?_put_self _ _ _

/-- The stage of the fields under the key, where `item` stands for the element. -/
def stageFor (template : Foreach) (context : Context) (members : Node) (key : String)
    (element : Node) : Except StageError Stage :=
  match template.bodyFault? with
  | some error => .error (.resolve error)
  | none =>
      ((template.entry key).resolve
        (memberContext context members key element)).1.mapError .resolve

theorem stageOf_eq_stageFor (template : Foreach) (context : Context) {members element : Node}
    {key : String} (found : Entries.value? key (keyed members) = some element) :
    template.stageOf context.data context.style members key =
      template.stageFor context members key element := by
  unfold stageFor
  cases fault : template.bodyFault? with
  | some error => rw [stageOf, found, fault]
  | none =>
      rw [stageOf_eq_checkedOutcome fault found, Entry.resolve_eq]
      rfl

end Foreach

namespace Expansion

open Foreach (elements memberContext stageFor)

/-- One stage for each element, in order: no two of the names are alike, and under the key at the
place of an element there is the stage in which `item` stands for this element. -/
structure OnePerElement (state : Expansion) (template : Foreach) (context : Context)
    (members : Node) (keys : List String) : Prop where
  names : state.stageNames.1 = .ok (keys.map (memberName template.name))
  apart : (keys.map (memberName template.name)).Nodup
  each : List.Forall₂ (fun key element =>
    (memberContext context members key element).get? itemName = some element ∧
      (state.resolveOne key).1 = template.stageFor context members key element)
    keys members.children

section Kept

variable {template : Foreach} {context : Context} {members : Node} {state : Expansion}
  (kept : (⟨template, context, []⟩ : Expansion).Kept state)
  (given : template.membersIn context.data context.style = .ok members)
include kept given

theorem stageNames_of_kept :
    state.stageNames.1 =
      .ok ((Entries.keys (Foreach.keyed members)).map (memberName template.name)) := by
  rw [(stageNames_served kept.settled).answer, kept.membersIn, given, kept.name]
  rfl

theorem resolveOne_of_kept {key : String} {element : Node}
    (found : Entries.value? key (Foreach.keyed members) = some element) :
    (state.resolveOne key).1 = template.stageFor context members key element := by
  rw [(resolveOne_served kept.settled key).answer, kept.stageIn, Foreach.stageIn, given]
  exact Foreach.stageOf_eq_stageFor template context found

variable (distinct : members.Distinct)
include distinct

/-- With fewer keys than elements some element would have no name. -/
theorem OnePerElement.nodup {keys : List String}
    (one : state.OnePerElement template context members keys) :
    (Entries.keys (elements members)).Nodup := by
  have same := Except.ok.inj (one.names.symm.trans (stageNames_of_kept kept given))
  have count := congrArg List.length same
  rw [List.length_map, List.length_map, one.each.length_eq, ← Foreach.elements_map_snd,
    List.length_map, Entries.keys, List.length_map] at count
  exact Foreach.nodup_of_length_le distinct (le_of_eq count)

theorem onePerElement_of_nodup (apart : (Entries.keys (elements members)).Nodup) :
    state.OnePerElement template context members (Entries.keys (elements members)) := by
  have keyed := Foreach.keyed_of_nodup distinct apart
  refine ⟨?_, apart.map (memberName_injective _), ?_⟩
  · rw [stageNames_of_kept kept given, keyed]
  · rw [← Foreach.elements_map_snd, Entries.keys, List.forall₂_map_left_iff,
      List.forall₂_map_right_iff, List.forall₂_same]
    rintro ⟨key, element⟩ listed
    have found : Entries.value? key (Foreach.keyed members) = some element := by
      rw [keyed]
      exact Entries.value?_of_mem apart listed
    exact ⟨Foreach.get?_memberContext context members key element,
      resolveOne_of_kept kept given found⟩

end Kept

/-- A template used in any way names its stages by the keys of the elements, each key once. There is
one stage for each element if and only if no two of the elements are scalars of one text in a list
without lists and dictionaries. -/
theorem one_per_element_iff (template : Foreach) (unused : template.unused = template)
    (context : Context) (distinct : context.Distinct) (members : Node)
    (given : (context.resolveNode template.iterable none false).1 = .ok members)
    (container : members.isContainer = true) (uses : List TemplateUse) :
    let state := (⟨template, context, []⟩ : Expansion).afterUses uses
    state.stageNames.1 = .ok ((Entries.keys (elements members)).eraseDups.map
      (memberName template.name)) ∧
    ((∃ keys, state.OnePerElement template context members keys) ↔
      members.isDict = true ∨ members.children.any Node.isContainer = true ∨
        (members.children.map fun element => element.toValue.text).Nodup) := by
  intro state
  have fresh : (⟨template, context, []⟩ : Expansion).Settled :=
    unused ▸ template.settled_unused context.data context.style
  have kept := kept_afterUses fresh uses
  have first : template.membersIn context.data context.style = .ok members := by
    have reached : ((⟨context.data, context.style, none, false⟩ : Scope).resolveNode
      template.iterable).outcome = .ok members := given
    simp only [Foreach.membersIn, reached, container, if_true]
  have whole : members.Distinct :=
    Foreach.distinct_membersIn ((Context.distinct_iff context).mp distinct).2 first
  refine ⟨?_, ?_⟩
  · rw [stageNames_of_kept kept first, Foreach.keys_keyed whole]
  · rw [← Foreach.nodup_keys_elements_iff whole]
    constructor
    · rintro ⟨keys, one⟩
      exact one.nodup kept first whole
    · intro apart
      exact ⟨_, onePerElement_of_nodup kept first whole apart⟩

/-- Three scalars, no two of the same text. -/
def sizes : Foreach :=
  { name := "build", iterable := .list [.string "1", .int 2, .bool true]
    body := [("cmd", .string "make $\x7bitem\x7d")], path := "dvc.yaml" }

theorem sizes_one_per_element :
    let members := Node.ofLocal sizes.iterable
    let state := (⟨sizes, {}, []⟩ : Expansion).afterUses [.hasMember "2", .resolveOne "1"]
    sizes.unused = sizes ∧ ({} : Context).Distinct ∧
    (({} : Context).resolveNode sizes.iterable none false).1 = .ok members ∧
    members.isContainer = true ∧ ∃ keys, state.OnePerElement sizes {} members keys := by
  intro members state
  have distinct : ({} : Context).Distinct := by decide
  have given : (({} : Context).resolveNode sizes.iterable none false).1 = .ok members := by cbv
  have texts : (members.children.map fun element => element.toValue.text).Nodup := by
    decide +kernel
  have one := (one_per_element_iff sizes rfl {} distinct members given rfl
    [.hasMember "2", .resolveOne "1"]).2.mpr (Or.inr (Or.inr texts))
  exact ⟨rfl, distinct, given, rfl, one⟩

/-- A text and a number of the same text. -/
def twins : Foreach := { sizes with iterable := .list [.string "1", .int 1] }

/-- The two share a key, and one stage is named for both. -/
theorem not_one_per_element :
    ¬ ∀ (template : Foreach) (context : Context) (members : Node), template.unused = template →
      context.Distinct → (context.resolveNode template.iterable none false).1 = .ok members →
      members.isContainer = true → ∀ uses : List TemplateUse,
        let state := (⟨template, context, []⟩ : Expansion).afterUses uses
        ∃ keys, state.OnePerElement template context members keys := by
  intro always
  have given : (({} : Context).resolveNode twins.iterable none false).1 =
      .ok (Node.ofLocal twins.iterable) := by cbv
  obtain ⟨keys, one⟩ := always twins {} _ rfl (by decide) given rfl []
  have named : (⟨twins, {}, []⟩ : Expansion).stageNames.1 = .ok ["build@1"] := by cbv
  have same := congrArg List.length (Except.ok.inj (one.names.symm.trans named))
  rw [List.length_map, one.each.length_eq] at same
  exact absurd same (by decide)

end Expansion

end StageTemplates
