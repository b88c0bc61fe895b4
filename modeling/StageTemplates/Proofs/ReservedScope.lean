import StageTemplates.Proofs.Bindings
import StageTemplates.Proofs.EntryOrder
import StageTemplates.Proofs.MergedEntries
import StageTemplates.Proofs.MergeSteps

set_option autoImplicit false

/-!
Merges while names are bound and reserved. Those that would touch a bound name fail and do nothing;
all others do what they would have done without the bindings, and the bindings are not in their way.
-/
namespace StageTemplates

namespace Entries

variable {α : Type}

/-- Entries made for some of the given names. -/
theorem value?_filterMap (value : String → Option α) (names : List String) (name : String) :
    value? name (names.filterMap fun name => (value name).map (name, ·)) =
      if name ∈ names then value name else none := by
  induction names with
  | nil => rfl
  | cons first rest ih =>
      cases found : value first with
      | none =>
          rw [List.filterMap_cons_none (by rw [found]; rfl), ih]
          by_cases same : name = first
          · simp [same, found]
          · simp [same]
      | some here =>
          rw [List.filterMap_cons_some (by rw [found]; rfl)]
          by_cases same : name = first
          · simp [same, found, value?]
          · simp [same, Ne.symm same, value?, ih]

theorem nodup_keys_filterMap (value : String → Option α) {names : List String}
    (distinct : names.Nodup) :
    (keys (names.filterMap fun name => (value name).map (name, ·))).Nodup := by
  have part : (keys (names.filterMap fun name => (value name).map (name, ·))).Sublist names := by
    induction names with
    | nil => exact .slnil
    | cons first rest ih =>
        have later := ih distinct.of_cons
        cases found : value first with
        | none =>
            rw [List.filterMap_cons_none (by rw [found]; rfl)]
            exact later.cons first
        | some here =>
            rw [List.filterMap_cons_some (by rw [found]; rfl)]
            exact later.cons_cons first
  exact distinct.sublist part

end Entries

namespace Context

/-- The names to be taken out again are those that stood for nothing. -/
theorem added_foldl_bindOne (reserve : Bool) (bindings : Entries Node)
    (distinct : (Entries.keys bindings).Nodup) (context : Context) (undo : Undo) :
    (bindings.foldl (bindOne reserve) (context, undo)).2.added = undo.added ++
      (Entries.keys bindings).filter fun name => !Entries.has name context.data := by
  induction bindings generalizing context undo with
  | nil => exact (List.append_nil undo.added).symm
  | cons binding rest ih =>
      obtain ⟨key, node⟩ := binding
      rw [Entries.keys_cons, List.nodup_cons] at distinct
      have same : ∀ name ∈ Entries.keys rest,
          (!Entries.has name (Entries.put key node context.data)) =
            !Entries.has name context.data := by
        intro name member
        have different : name ≠ key := fun same => distinct.1 (same ▸ member)
        rw [Entries.has, Entries.value?_put_of_ne different, Entries.has]
      have later := ih distinct.2 (bindOne reserve (context, undo) (key, node)).1
        (bindOne reserve (context, undo) (key, node)).2
      rw [List.foldl_cons, later, added_bindOne, List.append_assoc, Entries.keys_cons]
      congr 1
      refine (congrArg _ (List.filter_congr same)).trans ?_
      cases found : Entries.has key context.data with
      | true => rw [List.filter_cons_of_neg (by simp [found])]; rfl
      | false => rw [List.filter_cons_of_pos (by simp [found])]; rfl

/-- The names to be given back are those that stood for something. -/
theorem shadowed_foldl_bindOne (reserve : Bool) (bindings : Entries Node)
    (distinct : (Entries.keys bindings).Nodup) (context : Context) (undo : Undo) :
    (bindings.foldl (bindOne reserve) (context, undo)).2.shadowed = undo.shadowed ++
      (Entries.keys bindings).filterMap fun name =>
        (Entries.value? name context.data).map (name, ·) := by
  induction bindings generalizing context undo with
  | nil => exact (List.append_nil undo.shadowed).symm
  | cons binding rest ih =>
      obtain ⟨key, node⟩ := binding
      rw [Entries.keys_cons, List.nodup_cons] at distinct
      have same : ∀ name ∈ Entries.keys rest,
          (Entries.value? name (Entries.put key node context.data)).map (name, ·) =
            (Entries.value? name context.data).map (name, ·) := by
        intro name member
        have different : name ≠ key := fun same => distinct.1 (same ▸ member)
        rw [Entries.value?_put_of_ne different]
      have later := ih distinct.2 (bindOne reserve (context, undo) (key, node)).1
        (bindOne reserve (context, undo) (key, node)).2
      rw [List.foldl_cons, later, shadowed_bindOne, List.append_assoc, Entries.keys_cons]
      congr 1
      refine (congrArg _ (List.filterMap_congr same)).trans ?_
      cases found : Entries.value? key context.data with
      | none => rw [List.filterMap_cons_none (by rw [found]; rfl)]; rfl
      | some old => rw [List.filterMap_cons_some (by rw [found]; rfl)]; rfl

/-- Reserved bindings leave the names reserved that are reserved already or bound. -/
theorem mem_reserved_bind (bindings : Entries Node) (context : Context) (name : String) :
    name ∈ (context.bind bindings true).1.reserved ↔
      name ∈ context.reserved ∨ name ∈ Entries.keys bindings := by
  suffices every : ∀ (bindings : Entries Node) (context : Context) (undo : Undo),
      name ∈ (bindings.foldl (bindOne true) (context, undo)).1.reserved ↔
        name ∈ context.reserved ∨ name ∈ Entries.keys bindings from every bindings context {}
  intro bindings
  induction bindings with
  | nil => simp
  | cons binding rest ih =>
      intro context undo
      obtain ⟨key, node⟩ := binding
      have first : name ∈ (bindOne true (context, undo) (key, node)).1.reserved ↔
          name ∈ context.reserved ∨ name = key := by
        by_cases present : key ∈ context.reserved
        · simp [bindOne, present]
          exact fun same => same ▸ present
        · simp [bindOne, present]
      have later := ih (bindOne true (context, undo) (key, node)).1
        (bindOne true (context, undo) (key, node)).2
      rw [List.foldl_cons, later, first, Entries.keys_cons, List.mem_cons, or_assoc]

end Context

namespace MergePlan

/-- Whether one of the names would be merged over. -/
def touches (names : List String) (plan : MergePlan) : Bool :=
  plan.update?.any fun update => names.any update.contains

theorem touches_merging (names : List String) (update : Context) (overwrite : Bool)
    (file : Option ImportNote) :
    (merging update overwrite file).touches names = true ↔
      ∃ name ∈ names, update.contains name = true := List.any_eq_true

theorem not_touches_merging {names : List String} {update : Context} {overwrite : Bool}
    {file : Option ImportNote}
    (apart : (merging update overwrite file).touches names = false) :
    ∀ name ∈ names, name ∉ Entries.keys update.data := by
  intro name bound member
  have held : update.contains name = true := (Entries.has_eq_true_iff name update.data).mpr member
  rw [(touches_merging names update overwrite file).mpr ⟨name, bound, held⟩] at apart
  cases apart

end MergePlan

/-- The context inside, while names are bound and reserved, beside the one that there would be
without the bindings. `context` is the one before both. -/
structure Overlay (bindings : Bindings) (context inner outer : Context) : Prop where
  distinctInner : (Entries.keys inner.data).Nodup
  distinctOuter : (Entries.keys outer.data).Nodup
  bound : ∀ name ∈ Entries.keys bindings.entries,
    Entries.value? name inner.data = Entries.value? name bindings.entries
  shadowed : ∀ name ∈ Entries.keys bindings.entries,
    Entries.value? name outer.data = Entries.value? name context.data
  outside : ∀ name, name ∉ Entries.keys bindings.entries →
    Entries.value? name inner.data = Entries.value? name outer.data
  reserved : outer.reserved = context.reserved
  others : inner = { outer with
    data := inner.data, reserved := (context.bind bindings.entries true).1.reserved }

namespace Overlay

variable {bindings : Bindings} {context : Context}

/-- Bindings that were just made. -/
theorem ofBind (bindings : Bindings) (distinct : (Entries.keys context.data).Nodup) :
    Overlay bindings context (context.bind bindings.entries true).1 context := by
  obtain ⟨reserved, frame⟩ := context.bind_frame bindings.entries true
  have data : (context.bind bindings.entries true).1.data =
      Entries.putAll context.data bindings.entries := by rw [frame]
  refine ⟨?_, distinct, ?_, fun _ _ => rfl, ?_, rfl, ?_⟩
  · rw [data]
    exact Entries.nodup_keys_putAll distinct bindings.entries
  · intro name member
    obtain ⟨node, found⟩ := Option.ne_none_iff_exists'.mp
      (fun absent => (Entries.value?_eq_none_iff name bindings.entries).mp absent member)
    rw [data, Entries.value?_putAll, Entries.ofList_of_nodup bindings.distinct, found]
    rfl
  · intro name apart
    rw [data, Entries.value?_putAll_of_not_mem apart]
  · rw [frame]

variable {inner outer : Context} (overlay : Overlay bindings context inner outer)
include overlay

theorem imports : inner.imports = outer.imports := by rw [overlay.others]

theorem reservedInner : inner.reserved = (context.bind bindings.entries true).1.reserved := by
  rw [overlay.others]

theorem mem_reserved {name : String} (bound : name ∈ Entries.keys bindings.entries) :
    name ∈ inner.reserved := by
  rw [overlay.reservedInner, Context.mem_reserved_bind]
  exact Or.inr bound

/-- An update that holds no bound name touches reserved names as it would without the bindings. -/
theorem touched {update : Context}
    (apart : ∀ name ∈ Entries.keys bindings.entries, name ∉ Entries.keys update.data) :
    inner.touched update = outer.touched update := by
  have owed := Context.foldl_bindOne_reserved true bindings.entries
    (Undo.Reserved.nothing context.reserved)
  have split : inner.reserved =
      context.reserved ++ (context.bind bindings.entries true).2.reserved := by
    rw [overlay.reservedInner]
    exact owed.split
  have none : (context.bind bindings.entries true).2.reserved.filter update.contains = [] := by
    rw [List.filter_eq_nil_iff]
    intro name member held
    have reserved : name ∈ (context.bind bindings.entries true).1.reserved := by
      rw [← overlay.reservedInner, split]
      exact List.mem_append_right _ member
    have bound := ((Context.mem_reserved_bind bindings.entries context name).mp
      reserved).resolve_left (owed.fresh name member)
    exact apart name bound ((Entries.has_eq_true_iff name update.data).mp held)
  rw [Context.touched, Context.touched, split, List.filter_append, none, List.append_nil,
    overlay.reserved]

/-- A merge over a bound name fails and changes nothing. -/
theorem run_of_touches {plan : MergePlan}
    (holds : plan.touches (Entries.keys bindings.entries) = true) :
    ∃ update, plan.update? = some update ∧
      (∀ name ∈ Entries.keys bindings.entries, update.contains name = true →
        name ∈ inner.touched update) ∧
      plan.run inner = (.error (.reservedKey (inner.touched update) plan.item?), inner) := by
  cases plan with
  | answer outcome => cases holds
  | merging update overwrite file =>
      have listed : ∀ name ∈ Entries.keys bindings.entries, update.contains name = true →
          name ∈ inner.touched update := fun name bound held =>
        List.mem_filter.mpr ⟨overlay.mem_reserved bound, held⟩
      refine ⟨update, rfl, listed, ?_⟩
      obtain ⟨name, bound, held⟩ := (MergePlan.touches_merging _ update overwrite file).mp holds
      have some := listed name bound held
      rw [MergePlan.run, Context.merge]
      cases touched : inner.touched update with
      | nil =>
          rw [touched] at some
          cases some
      | cons first rest =>
          cases file with
          | none => rfl
          | some file => rfl

/-- Any other merge fares as it would without the bindings, and leaves them as they are. -/
theorem run {plan : MergePlan}
    (apart : plan.touches (Entries.keys bindings.entries) = false) :
    (plan.run inner).1 = (plan.run outer).1 ∧
      Overlay bindings context (plan.run inner).2 (plan.run outer).2 := by
  cases plan with
  | answer outcome => exact ⟨rfl, overlay⟩
  | merging update overwrite file =>
      -- The update has no bound name, and on all other names both contexts agree.
      have free := MergePlan.not_touches_merging apart
      have within : ∀ name ∈ Entries.keys update.data, name ∉ Entries.keys bindings.entries :=
        fun name member bound => free name bound member
      obtain ⟨outcome, agree⟩ :=
        Node.mergeEntries_agree overwrite within overlay.outside
      have merged : Overlay bindings context
          { inner with data := (Node.mergeEntries overwrite inner.data update.data).1 }
          { outer with data := (Node.mergeEntries overwrite outer.data update.data).1 } := by
        refine ⟨Node.nodup_keys_mergeEntries overwrite overlay.distinctInner _,
          Node.nodup_keys_mergeEntries overwrite overlay.distinctOuter _, ?_, ?_, agree,
          overlay.reserved, ?_⟩
        · intro name bound
          rw [Node.value?_mergeEntries_of_not_mem overwrite (free name bound)]
          exact overlay.bound name bound
        · intro name bound
          rw [Node.value?_mergeEntries_of_not_mem overwrite (free name bound)]
          exact overlay.shadowed name bound
        · rw [overlay.others]
      have touched := overlay.touched free
      rw [MergePlan.run, MergePlan.run, Context.merge, Context.merge, touched]
      cases outer.touched update with
      | cons first rest => exact ⟨rfl, overlay⟩
      | nil =>
          dsimp only
          rw [← outcome]
          cases (Node.mergeEntries overwrite inner.data update.data).2 with
          | some error => exact ⟨rfl, merged⟩
          | none =>
              refine ⟨rfl, merged.distinctInner, merged.distinctOuter, merged.bound,
                merged.shadowed, merged.outside, merged.reserved, ?_⟩
              rw [overlay.others]

/-- Taking the bindings back gives what there would be without them, in some order. -/
theorem unbind :
    let after := inner.unbind (context.bind bindings.entries true).2
    after.data.Perm outer.data ∧ after = { outer with data := after.data } := by
  intro after
  have added := Context.added_foldl_bindOne true bindings.entries bindings.distinct context {}
  have shadowed :=
    Context.shadowed_foldl_bindOne true bindings.entries bindings.distinct context {}
  rw [List.nil_append] at added shadowed
  have data : after.data = Entries.putAll
      ((context.bind bindings.entries true).2.added.reverse.foldl
        (fun data key => Entries.swapRemove key data) inner.data)
      (context.bind bindings.entries true).2.shadowed := rfl
  have reserved : after.reserved = outer.reserved := by
    have owed := Context.foldl_bindOne_reserved true bindings.entries
      (Undo.Reserved.nothing context.reserved)
    rw [overlay.reserved, ← owed.restored, ← Context.bind, ← overlay.reservedInner]
    rfl
  constructor
  · refine Entries.perm_of_value? ?_ overlay.distinctOuter ?_
    · rw [data]
      exact Entries.nodup_keys_putAll
        (Entries.nodup_keys_foldl_swapRemove overlay.distinctInner _) _
    · intro name
      rw [data, Entries.value?_putAll, Context.bind, shadowed, added,
        Entries.ofList_of_nodup (Entries.nodup_keys_filterMap _ bindings.distinct),
        Entries.value?_filterMap, Entries.value?_foldl_swapRemove overlay.distinctInner]
      simp only [List.mem_reverse, List.mem_filter]
      by_cases bound : name ∈ Entries.keys bindings.entries
      · rw [overlay.shadowed name bound]
        cases found : Entries.value? name context.data with
        | none => simp [bound, Entries.has, found]
        | some old => simp [bound]
      · simp [bound, overlay.outside name bound]
  · have kept : after = { inner with data := after.data, reserved := after.reserved } := rfl
    rw [kept, reserved, overlay.others]

end Overlay

end StageTemplates
