import Mathlib.Data.List.Nodup
import StageTemplates.Context.Scoped
import StageTemplates.Proofs.Entries

set_option autoImplicit false

/-!
Bindings that are taken back leave the variables as they were. What stands between binding and
taking back may do what it likes with the rest of the context.
-/
namespace StageTemplates

/-- Nodes to be bound, each under a name of its own. -/
structure Bindings where
  entries : Entries Node
  distinct : (Entries.keys entries).Nodup

namespace Undo

/-- What a state with bindings owes to the variables before them: the names of before stand where
they stood, new names follow, and the shadowed values give back what was there. -/
structure Data (before data : Entries Node) (undo : Undo) : Prop where
  split : ∃ kept added, data = kept ++ added ∧ Entries.keys added = undo.added ∧
    Entries.keys kept = Entries.keys before ∧ Entries.putAll kept undo.shadowed = before
  distinct : undo.added.Nodup
  fresh : ∀ name ∈ undo.added, name ∉ Entries.keys before
  shadowed : ∀ name ∈ Entries.keys undo.shadowed, name ∈ Entries.keys before

/-- New reservations follow those of before. -/
structure Reserved (before reserved : List String) (undo : Undo) : Prop where
  split : reserved = before ++ undo.reserved
  distinct : undo.reserved.Nodup
  fresh : ∀ name ∈ undo.reserved, name ∉ before

theorem Data.nothing (before : Entries Node) : Data before before {} := by
  refine ⟨⟨before, [], by simp, rfl, rfl, rfl⟩, List.nodup_nil, ?_, ?_⟩
  · intro name member
    simp at member
  · intro name member
    simp at member

theorem Reserved.nothing (before : List String) : Reserved before before {} := by
  refine ⟨by simp, List.nodup_nil, ?_⟩
  intro name member
  simp at member

theorem Data.keys_eq {before data : Entries Node} {undo : Undo} (owed : Data before data undo) :
    Entries.keys data = Entries.keys before ++ undo.added := by
  obtain ⟨kept, added, rfl, names, same, -⟩ := owed.split
  rw [Entries.keys_append, same, names]

/-- A name that is new joins those to be taken out. -/
theorem Data.add {before data : Entries Node} {undo : Undo} (owed : Data before data undo)
    {key : String} (absent : key ∉ Entries.keys data) (node : Node) (reserved : List String) :
    Data before (Entries.put key node data)
      { added := undo.added ++ [key], shadowed := undo.shadowed, reserved } := by
  rw [owed.keys_eq, List.mem_append, not_or] at absent
  obtain ⟨kept, added, rfl, names, same, restored⟩ := owed.split
  refine ⟨⟨kept, added ++ [(key, node)], ?_, ?_, same, restored⟩, ?_, ?_, owed.shadowed⟩
  · rw [Entries.put_of_not_mem, List.append_assoc]
    rw [Entries.keys_append, List.mem_append, not_or, same, names]
    exact absent
  · rw [Entries.keys_append, names]
    rfl
  · rw [List.nodup_append]
    refine ⟨owed.distinct, List.nodup_singleton key, ?_⟩
    intro name member other last same
    rw [List.mem_singleton] at last
    exact absent.2 (last ▸ same ▸ member)
  · intro name member
    rcases List.mem_append.mp member with old | last
    · exact owed.fresh name old
    · rw [List.mem_singleton] at last
      exact last ▸ absent.1

/-- A name that had a value, and was not bound yet, keeps that value for later. -/
theorem Data.shadow {before data : Entries Node} {undo : Undo} (owed : Data before data undo)
    {key : String} {old : Node} (found : Entries.value? key data = some old)
    (unbound : key ∉ undo.added) (single : key ∉ Entries.keys undo.shadowed) (node : Node)
    (reserved : List String) :
    Data before (Entries.put key node data)
      { added := undo.added, shadowed := undo.shadowed ++ [(key, old)], reserved } := by
  have present : key ∈ Entries.keys before := by
    have member := Entries.mem_keys_of_value? found
    rw [owed.keys_eq, List.mem_append] at member
    exact member.resolve_right unbound
  obtain ⟨kept, added, rfl, names, same, restored⟩ := owed.split
  have inKept : key ∈ Entries.keys kept := same ▸ present
  have valued : Entries.value? key before = some old := by
    rw [← restored, Entries.value?_putAll_of_not_mem single,
      ← Entries.value?_append_of_mem inKept added]
    exact found
  refine ⟨⟨Entries.put key node kept, added, ?_, names, ?_, ?_⟩, owed.distinct, owed.fresh, ?_⟩
  · exact Entries.put_append_of_mem inKept node added
  · rw [Entries.keys_put_of_mem inKept, same]
  · rw [Entries.putAll_append, Entries.put_putAll_comm inKept single, restored,
      Entries.putAll_cons, Entries.putAll_nil, Entries.put_put_self]
    exact Entries.put_of_value? valued
  · intro name member
    rw [Entries.keys_append, List.mem_append] at member
    rcases member with earlier | last
    · exact owed.shadowed name earlier
    · rw [Entries.keys_cons, Entries.keys_nil, List.mem_singleton] at last
      exact last ▸ present

/-- Taking out and giving back restores the variables. -/
theorem Data.restored {before data : Entries Node} {undo : Undo} (owed : Data before data undo) :
    Entries.putAll
      (undo.added.reverse.foldl (fun data key => Entries.swapRemove key data) data)
      undo.shadowed = before := by
  have fresh := owed.fresh
  have distinct := owed.distinct
  obtain ⟨kept, added, rfl, names, same, restored⟩ := owed.split
  rw [← names] at fresh distinct
  rw [← names, Entries.foldl_swapRemove_append kept added distinct (by rwa [same])]
  exact restored

theorem release_append_of_not_mem {key : String} {first : List String} (absent : key ∉ first)
    (second : List String) :
    release key (first ++ second) = first ++ release key second := by
  induction first with
  | nil => rfl
  | cons name rest ih =>
      rw [List.mem_cons, not_or] at absent
      simp only [List.cons_append, release, Ne.symm absent.1, if_false, ih absent.2]

/-- Releasing a name takes out that name, wherever the others come to stand. -/
theorem release_perm {key : String} {names : List String} (present : key ∈ names) :
    (release key names).Perm (names.erase key) := by
  induction names with
  | nil => simp at present
  | cons name rest ih =>
      by_cases same : name = key
      · subst same
        rw [List.erase_cons_head]
        rcases rest.eq_nil_or_concat with rfl | ⟨front, last, rfl⟩
        · simp [release]
        · rw [List.concat_eq_append]
          simp only [release, if_true, List.getLast?_concat, List.dropLast_concat]
          exact (List.perm_append_singleton last front).symm
      · have later : key ∈ rest := by simpa [Ne.symm same] using present
        rw [List.erase_cons_tail (by simpa using same)]
        simp only [release, same, if_false]
        exact (ih later).cons name

theorem foldl_release_append (before : List String) {names order : List String}
    (same : names.Perm order) (fresh : ∀ name ∈ order, name ∉ before) :
    order.foldl (fun names key => release key names) (before ++ names) = before := by
  induction order generalizing names with
  | nil => simp [List.Perm.eq_nil same]
  | cons key rest ih =>
      have present : key ∈ names := same.mem_iff.mpr (by simp)
      have left : (release key names).Perm rest := by
        have erased := (release_perm present).trans (same.erase key)
        rwa [List.erase_cons_head] at erased
      rw [List.foldl_cons, release_append_of_not_mem (fresh key (by simp))]
      exact ih left fun name member => fresh name (by simp [member])

theorem Reserved.restored {before reserved : List String} {undo : Undo}
    (owed : Reserved before reserved undo) :
    undo.reserved.foldl (fun names key => release key names) reserved = before := by
  rw [owed.split]
  exact foldl_release_append before (List.Perm.refl undo.reserved) owed.fresh

end Undo

namespace Context

/-- Binding touches the variables and the reservations, nothing else. -/
theorem bindOne_frame (reserve : Bool) (context : Context) (undo : Undo) (key : String)
    (node : Node) :
    ∃ reserved, (bindOne reserve (context, undo) (key, node)).1 =
      { context with data := Entries.put key node context.data, reserved } := ⟨_, rfl⟩

theorem added_bindOne (reserve : Bool) (context : Context) (undo : Undo) (key : String)
    (node : Node) :
    (bindOne reserve (context, undo) (key, node)).2.added =
      undo.added ++ (if Entries.has key context.data then [] else [key]) := by
  unfold Entries.has
  cases found : Entries.value? key context.data <;> simp only [bindOne, found] <;> split <;> simp

theorem shadowed_bindOne (reserve : Bool) (context : Context) (undo : Undo) (key : String)
    (node : Node) :
    (bindOne reserve (context, undo) (key, node)).2.shadowed =
      undo.shadowed ++ ((Entries.value? key context.data).map (key, ·)).toList := by
  cases found : Entries.value? key context.data <;> simp only [bindOne, found] <;> split <;> simp

/-- A name is reserved, and noted for release, if it was not reserved before. -/
theorem reserved_bindOne (reserve : Bool) (context : Context) (undo : Undo) (key : String)
    (node : Node) :
    (bindOne reserve (context, undo) (key, node)).1.reserved = context.reserved ∧
        (bindOne reserve (context, undo) (key, node)).2.reserved = undo.reserved ∨
      key ∉ context.reserved ∧
        (bindOne reserve (context, undo) (key, node)).1.reserved = context.reserved ++ [key] ∧
        (bindOne reserve (context, undo) (key, node)).2.reserved = undo.reserved ++ [key] := by
  by_cases fresh : (reserve && !context.reserved.contains key) = true
  · right
    have absent : key ∉ context.reserved := by
      simp only [Bool.and_eq_true, Bool.not_eq_true', List.contains_eq_mem,
        decide_eq_false_iff_not] at fresh
      exact fresh.2
    refine ⟨absent, ?_⟩
    cases found : Entries.value? key context.data <;>
      simp only [bindOne, found, fresh, if_true, and_self]
  · left
    cases found : Entries.value? key context.data <;>
      simp only [bindOne, found, fresh, Bool.false_eq_true, if_false, and_self]

/-- Binding one name that is not bound yet keeps what is owed to the variables of before. -/
theorem bindOne_data (reserve : Bool) {before : Entries Node} {context : Context} {undo : Undo}
    (owed : Undo.Data before context.data undo) {key : String} (unbound : key ∉ undo.added)
    (single : key ∉ Entries.keys undo.shadowed) (node : Node) :
    Undo.Data before (bindOne reserve (context, undo) (key, node)).1.data
      (bindOne reserve (context, undo) (key, node)).2 := by
  have added := added_bindOne reserve context undo key node
  have shadowed := shadowed_bindOne reserve context undo key node
  cases found : Entries.value? key context.data with
  | none =>
      have absent := (Entries.value?_eq_none_iff key context.data).mp found
      simp only [Entries.has, found, Option.isSome_none, Bool.false_eq_true, if_false] at added
      simp only [found, Option.map_none, Option.toList_none, List.append_nil] at shadowed
      have step := owed.add absent node (bindOne reserve (context, undo) (key, node)).2.reserved
      rwa [← added, ← shadowed] at step
  | some old =>
      simp only [Entries.has, found, Option.isSome_some, if_true, List.append_nil] at added
      simp only [found, Option.map_some, Option.toList_some] at shadowed
      have step := owed.shadow found unbound single node
        (bindOne reserve (context, undo) (key, node)).2.reserved
      rwa [← added, ← shadowed] at step

theorem bindOne_reserved (reserve : Bool) {before : List String} {context : Context}
    {undo : Undo} (owed : Undo.Reserved before context.reserved undo) (key : String)
    (node : Node) :
    Undo.Reserved before (bindOne reserve (context, undo) (key, node)).1.reserved
      (bindOne reserve (context, undo) (key, node)).2 := by
  rcases reserved_bindOne reserve context undo key node with
    ⟨kept, noted⟩ | ⟨absent, kept, noted⟩
  · refine ⟨?_, ?_, ?_⟩
    · rw [kept, noted, owed.split]
    · rw [noted]
      exact owed.distinct
    · rw [noted]
      exact owed.fresh
  · rw [owed.split, List.mem_append, not_or] at absent
    refine ⟨?_, ?_, ?_⟩
    · rw [kept, noted, owed.split, List.append_assoc]
    · rw [noted, List.nodup_append]
      refine ⟨owed.distinct, List.nodup_singleton key, ?_⟩
      intro name member other last same
      rw [List.mem_singleton] at last
      exact absent.2 (last ▸ same ▸ member)
    · rw [noted]
      intro name member
      rcases List.mem_append.mp member with old | last
      · exact owed.fresh name old
      · rw [List.mem_singleton] at last
        exact last ▸ absent.1

/-- A name found bound after a step was bound before it, or by it. -/
theorem bindOne_names (reserve : Bool) (context : Context) (undo : Undo) (key : String)
    (node : Node) {name : String}
    (bound : name ∈ (bindOne reserve (context, undo) (key, node)).2.added ∨
      name ∈ Entries.keys (bindOne reserve (context, undo) (key, node)).2.shadowed) :
    (name ∈ undo.added ∨ name ∈ Entries.keys undo.shadowed) ∨ name = key := by
  rw [added_bindOne, shadowed_bindOne, Entries.keys_append] at bound
  rcases bound with member | member
  · rcases List.mem_append.mp member with old | last
    · exact Or.inl (Or.inl old)
    · split at last
      · simp at last
      · exact Or.inr (List.mem_singleton.mp last)
  · rcases List.mem_append.mp member with old | last
    · exact Or.inl (Or.inr old)
    · cases found : Entries.value? key context.data with
      | none => simp [found, Entries.keys] at last
      | some value => exact Or.inr (by simpa [found, Entries.keys] using last)

theorem foldl_bindOne_data (reserve : Bool) {before : Entries Node} (bindings : Entries Node)
    (distinct : (Entries.keys bindings).Nodup) {context : Context} {undo : Undo}
    (owed : Undo.Data before context.data undo)
    (unbound : ∀ name ∈ Entries.keys bindings,
      ¬ (name ∈ undo.added ∨ name ∈ Entries.keys undo.shadowed)) :
    Undo.Data before (bindings.foldl (bindOne reserve) (context, undo)).1.data
      (bindings.foldl (bindOne reserve) (context, undo)).2 := by
  induction bindings generalizing context undo with
  | nil => exact owed
  | cons binding rest ih =>
      obtain ⟨key, node⟩ := binding
      rw [Entries.keys_cons, List.nodup_cons] at distinct
      have free := not_or.mp (unbound key (by simp))
      have step := bindOne_data reserve owed free.1 free.2 node
      rw [List.foldl_cons]
      refine ih distinct.2 step ?_
      intro name member bound
      rcases bindOne_names reserve context undo key node bound with earlier | same
      · exact unbound name (by simp [member]) earlier
      · exact distinct.1 (same ▸ member)

theorem foldl_bindOne_reserved (reserve : Bool) {before : List String}
    (bindings : Entries Node) {context : Context} {undo : Undo}
    (owed : Undo.Reserved before context.reserved undo) :
    Undo.Reserved before (bindings.foldl (bindOne reserve) (context, undo)).1.reserved
      (bindings.foldl (bindOne reserve) (context, undo)).2 := by
  induction bindings generalizing context undo with
  | nil => exact owed
  | cons binding rest ih => exact ih (bindOne_reserved reserve owed binding.1 binding.2)

theorem foldl_bindOne_frame (reserve : Bool) (bindings : Entries Node) (context : Context)
    (undo : Undo) :
    ∃ reserved, (bindings.foldl (bindOne reserve) (context, undo)).1 =
      { context with data := Entries.putAll context.data bindings, reserved } := by
  induction bindings generalizing context undo with
  | nil => exact ⟨context.reserved, rfl⟩
  | cons binding rest ih =>
      obtain ⟨first, here⟩ := bindOne_frame reserve context undo binding.1 binding.2
      obtain ⟨reserved, there⟩ := ih (bindOne reserve (context, undo) binding).1
        (bindOne reserve (context, undo) binding).2
      refine ⟨reserved, ?_⟩
      rw [List.foldl_cons, there, here]
      rfl

/-- What a context with bindings in it sees. -/
theorem bind_frame (context : Context) (bindings : Entries Node) (reserve : Bool) :
    ∃ reserved, (context.bind bindings reserve).1 =
      { context with data := Entries.putAll context.data bindings, reserved } :=
  foldl_bindOne_frame reserve bindings context {}

/-- Taking bindings back gives the variables and the reservations of before, for any context that
still holds the bindings as they were made. -/
theorem unbind_bind {bindings : Entries Node} (distinct : (Entries.keys bindings).Nodup)
    (context inner : Context) (reserve : Bool)
    (sameData : inner.data = (context.bind bindings reserve).1.data)
    (sameReserved : inner.reserved = (context.bind bindings reserve).1.reserved) :
    inner.unbind (context.bind bindings reserve).2 =
      { inner with data := context.data, reserved := context.reserved } := by
  have data := foldl_bindOne_data reserve bindings distinct (Undo.Data.nothing context.data)
    (by intro name _; simp [Entries.keys])
  have reserved := foldl_bindOne_reserved reserve bindings
    (Undo.Reserved.nothing context.reserved)
  have dataBack := data.restored
  have reservedBack := reserved.restored
  unfold unbind
  rw [sameData, sameReserved]
  exact congrArg₂ (fun data reserved => { inner with data, reserved }) dataBack reservedBack

end Context

end StageTemplates
