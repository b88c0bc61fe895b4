import Mathlib
import StageTemplates.Proofs.LoadedVariables
import StageTemplates.Proofs.MemberStages
import StageTemplates.Proofs.ScopedMerges
import StageTemplates.Proofs.ScopedUses

set_option autoImplicit false

/-!
The order of the variables after bindings are taken back. Nothing moves a name that was there
before. Names that came while others were bound are turned round, once for each bound name that is
taken out.
-/
namespace StageTemplates

/-- Of two lists with the same beginning, the longer one without a part in the middle, the one keeps
the order of the other if and only if the rest is the same. -/
theorem sublist_append_iff {kept out moved later : List String}
    (distinct : (kept ++ out ++ later).Nodup) (same : moved.Perm later) :
    (kept ++ moved).Sublist (kept ++ out ++ later) ↔ moved = later := by
  constructor
  · intro within
    have apart : ∀ name ∈ kept ++ moved, name ∉ out := by
      rw [List.nodup_append, List.nodup_append] at distinct
      obtain ⟨⟨-, -, before⟩, -, after⟩ := distinct
      rw [List.forall_mem_append]
      refine ⟨fun name member there => before name member name there rfl, ?_⟩
      intro name member there
      exact after name (List.mem_append_right _ there) name (same.mem_iff.mp member) rfl
    -- Without the middle part both sides are of one length, so the one is all of the other.
    have left := within.filter (· ∉ out)
    have all : (kept ++ moved).filter (· ∉ out) = kept ++ moved :=
      List.filter_eq_self.mpr (by simpa using apart)
    have rest : (kept ++ out ++ later).filter (· ∉ out) = kept ++ later := by
      have stays : ∀ name ∈ kept ++ later, name ∉ out := by
        intro name member
        exact apart name ((same.append_left kept).mem_iff.mpr member)
      rw [List.forall_mem_append] at stays
      have keeps : kept.filter (· ∉ out) = kept := List.filter_eq_self.mpr (by simpa using stays.1)
      have follows : later.filter (· ∉ out) = later :=
        List.filter_eq_self.mpr (by simpa using stays.2)
      have gone : out.filter (· ∉ out) = [] := by simp
      rw [List.filter_append, List.filter_append, keeps, gone, follows, List.append_nil]
    rw [all, rest] at left
    exact List.append_cancel_left (left.eq_of_length (same.append_left kept).length_eq)
  · rintro rfl
    rw [List.append_assoc]
    exact (List.sublist_append_right out moved).append_left kept

namespace Context

/-- Each name stands once, and those given stand first, in their order. -/
structure Begins (names : List String) (context : Context) : Prop where
  distinct : (Entries.keys context.data).Nodup
  first : names <+: context.keys

theorem Begins.of_data {names : List String} {context after : Context}
    (begins : Begins names context) (same : after.data = context.data) : Begins names after := by
  constructor
  · rw [same]
    exact begins.distinct
  · rw [keys, same]
    exact begins.first

theorem Begins.noted {names : List String} {context after : Context}
    (begins : Begins names context) (noted : Noted context after) : Begins names after := by
  obtain ⟨reads, rfl⟩ := noted
  exact begins.of_data rfl

/-- A merge writes under names in their places, or behind them. -/
theorem prefix_keys_merge (context update : Context) (overwrite : Bool) :
    context.keys <+: (context.merge update overwrite).2.keys := by
  have kept : Entries.keys context.data <+:
      Entries.keys (Node.mergeEntries overwrite context.data update.data).1 := by
    refine Node.mergeEntries_keeps overwrite
      (fun entries => Entries.keys context.data <+: Entries.keys entries) ?_ (List.prefix_refl _)
    intro name _ node into first
    rw [Entries.keys_put]
    split
    · exact first
    · exact first.trans (List.prefix_append _ _)
  unfold merge
  split
  · dsimp only
    split
    · exact kept
    · exact kept
  · exact List.prefix_refl _

theorem nodup_keys_merge {context : Context} (distinct : (Entries.keys context.data).Nodup)
    (update : Context) (overwrite : Bool) :
    (Entries.keys (context.merge update overwrite).2.data).Nodup := by
  have kept := Node.nodup_keys_mergeEntries overwrite distinct update.data
  unfold merge
  split
  · dsimp only
    split
    · exact kept
    · exact kept
  · exact distinct

theorem keptWith_begins (names : List String) : KeptWith (fun _ => True) (Begins names) where
  merge := fun overwrite begins _ =>
    ⟨nodup_keys_merge begins.distinct _ overwrite,
      begins.first.trans (prefix_keys_merge _ _ overwrite)⟩
  imports := fun _ begins => begins.of_data rfl

end Context

open Context

theorem MergeCall.begins {names : List String} {context : Context}
    (begins : Begins names context) (fs : FileSystem) (call : MergeCall) :
    Begins names (call.run fs context).context := by
  rw [call.run_eq_inTurn]
  exact (keptWith_begins names).inTurn fs (fun _ _ _ _ _ => trivial) begins

section Templates

variable (state : Expansion)

theorem Expansion.noted_members : Noted state.context state.members.2.context := by
  unfold members
  cases state.template.members with
  | some members => exact Noted.refl _
  | none =>
      have look := noted_noted state.context
        ((state.context.scope none false).resolveNode state.template.iterable)
      rw [← resolveNode] at look
      dsimp only
      generalize state.context.resolveNode state.template.iterable none false = result at look ⊢
      obtain ⟨error | members, after⟩ := result
      · exact look
      · dsimp only
        split
        · exact look
        · exact look

theorem Expansion.noted_keyed : Noted state.context state.keyed.2.context := by
  unfold keyed
  cases state.template.keyedMembers with
  | some entries => exact Noted.refl _
  | none =>
      have look := state.noted_members
      generalize state.members = result at look
      obtain ⟨error | members, after⟩ := result
      · exact look
      · exact look

theorem Expansion.noted_checkedBody : Noted state.context state.checkedBody.2.context := by
  rw [state.checkedBody_frame.1]
  exact Noted.refl _

theorem Expansion.noted_resolveOne (key : String) :
    Noted state.context (state.resolveOne key).2.context := by
  have look := state.noted_keyed
  unfold resolveOne
  generalize state.keyed = result at look
  obtain ⟨error | entries, after⟩ := result
  · exact look
  · dsimp only
    split
    · exact look
    · have again := look.trans after.noted_members
      generalize after.members = result at again
      obtain ⟨error | members, last⟩ := result
      · exact again
      · dsimp only
        rw [resolveMember_eq]
        exact again.trans last.noted_checkedBody

theorem Expansion.noted_resolveEach (keys : List String) (done : Entries Value) :
    Noted state.context (resolveEach keys done state).2.context := by
  induction keys generalizing done state with
  | nil => exact Noted.refl _
  | cons key rest ih =>
      have first := state.noted_resolveOne key
      rw [resolveEach]
      generalize state.resolveOne key = result at first
      obtain ⟨error | stage, after⟩ := result
      · exact first
      · exact first.trans (ih after _)

/-- A template in whatever state leaves the variables alone. -/
theorem TemplateUse.noted_after (use : TemplateUse) :
    Noted state.context (use.after state).context := by
  have look := state.noted_keyed
  cases use with
  | members => exact state.noted_members
  | keyed => exact look
  | checkedBody => exact state.noted_checkedBody
  | hasMember key =>
      unfold after Expansion.hasMember
      generalize state.keyed = result at look
      obtain ⟨error | found, after⟩ := result
      · exact look
      · exact look
  | stageNames =>
      unfold after Expansion.stageNames
      generalize state.keyed = result at look
      obtain ⟨error | found, after⟩ := result
      · exact look
      · exact look
  | resolveOne key => exact state.noted_resolveOne key
  | resolveAll =>
      unfold after Expansion.resolveAll
      generalize state.keyed = result at look
      obtain ⟨error | found, after⟩ := result
      · exact look
      · exact look.trans (after.noted_resolveEach _ _)

end Templates

/-- What may be done with the variables: uses of them, merges, uses of a template, which may know
its members from before; and, while a record is kept or names are bound, all this in turn. -/
inductive Work where
  | read (use : Use)
  | merge (fs : FileSystem) (call : MergeCall)
  | expand (template : Foreach) (use : TemplateUse)
  | track (asked : Bool) (works : List Work)
  | temporarily (bindings : Bindings) (reserve : Bool) (works : List Work)

namespace Work

mutual

/-- The context after some work. What fails ends like what succeeds. -/
def run : Work → Context → Context
  | read use, context => use.run context
  | merge fs call, context => (call.run fs context).context
  | expand template use, context => (use.after ⟨template, context, []⟩).context
  | track asked works, context =>
      let inner := runAll works context.beginTracking
      if asked then (inner.endTracking context.tracked).2
      else { inner with tracked := context.tracked }
  | temporarily bindings reserve works, context =>
      let (inner, undo) := context.bind bindings.entries reserve
      (runAll works inner).unbind undo
termination_by structural work => work

def runAll : List Work → Context → Context
  | [], context => context
  | work :: rest, context => runAll rest (run work context)
termination_by structural works => works

end

end Work

/-- The names bound that stand for nothing yet. -/
def Bindings.fresh (bindings : Bindings) (context : Context) : List String :=
  (Entries.keys bindings.entries).filter fun name => !context.contains name

namespace Context

section Release

variable (context : Context) (bindings : Bindings) (reserve : Bool)

theorem keys_bind :
    (context.bind bindings.entries reserve).1.keys = context.keys ++ bindings.fresh context := by
  have added := added_foldl_bindOne reserve bindings.entries bindings.distinct context {}
  have owed := foldl_bindOne_data reserve bindings.entries bindings.distinct
    (Undo.Data.nothing context.data) (by simp)
  rw [keys, keys, bind, owed.keys_eq, added]
  rfl

theorem begins_bind {context : Context} (distinct : (Entries.keys context.data).Nodup) :
    Begins (context.keys ++ bindings.fresh context) (context.bind bindings.entries reserve).1 := by
  constructor
  · obtain ⟨reserved, bound⟩ := context.bind_frame bindings.entries reserve
    rw [bound]
    exact Entries.nodup_keys_putAll distinct _
  · rw [keys_bind]

/-- Taking bindings back leaves the names of before where they stand; those that came meanwhile are
turned round once for each name that is taken out. -/
theorem keys_unbind {context last : Context} {later : List String}
    (distinct : (Entries.keys last.data).Nodup)
    (names : last.keys = context.keys ++ bindings.fresh context ++ later) :
    ∃ moved, (last.unbind (context.bind bindings.entries reserve).2).keys = context.keys ++ moved ∧
      moved.rotate (bindings.fresh context).length = later := by
  have added := added_foldl_bindOne reserve bindings.entries bindings.distinct context {}
  rw [← bind, List.nil_append] at added
  have owed := foldl_bindOne_data reserve bindings.entries bindings.distinct
    (Undo.Data.nothing context.data) (by simp)
  rw [← bind] at owed
  -- The entries stand as their names do.
  obtain ⟨front, after, whole, begun, rfl⟩ := List.map_eq_append_iff.mp names
  obtain ⟨kept, out, rfl, same, gone⟩ := List.map_eq_append_iff.mp begun
  have same : Entries.keys kept = Entries.keys context.data := same
  rw [whole, Entries.keys_append, Entries.keys_append, List.nodup_append, List.nodup_append]
    at distinct
  obtain ⟨⟨-, single, apart⟩, -, -⟩ := distinct
  obtain ⟨moved, taken, turned⟩ := Entries.foldl_swapRemove_rotate kept out after single
    fun name member before => apart name before name member rfl
  have fresh : (context.bind bindings.entries reserve).2.added = Entries.keys out :=
    added.trans gone.symm
  have present : Entries.keys (context.bind bindings.entries reserve).2.shadowed ⊆
      Entries.keys (kept ++ moved) := by
    intro name member
    have old : name ∈ Entries.keys kept := same ▸ owed.shadowed name member
    rw [Entries.keys_append]
    exact List.mem_append_left _ old
  refine ⟨Entries.keys moved, ?_, ?_⟩
  · rw [keys, unbind]
    dsimp only
    rw [fresh, whole, taken, Entries.keys_putAll_of_subset present, Entries.keys_append]
    exact congrArg (· ++ _) same
  · rw [← gone, List.length_map]
    exact turned

theorem begins_unbind {context last : Context} {names : List String}
    (begins : names <+: context.keys)
    (bound : Begins (context.keys ++ bindings.fresh context) last) :
    Begins names (last.unbind (context.bind bindings.entries reserve).2) := by
  obtain ⟨later, whole⟩ := bound.first
  obtain ⟨moved, released, -⟩ := keys_unbind bindings reserve bound.distinct whole.symm
  constructor
  · exact Entries.nodup_keys_putAll (Entries.nodup_keys_foldl_swapRemove bound.distinct _) _
  · rw [released]
    exact begins.trans (List.prefix_append _ _)

end Release

end Context

namespace Work

mutual

/-- No work moves the names of before. -/
theorem begins_run (work : Work) {names : List String} {context : Context}
    (begins : Begins names context) : Begins names (work.run context) := by
  match work with
  | read use => exact begins.noted (use.noted_run context)
  | merge fs call => exact call.begins begins fs
  | expand template use => exact begins.noted (use.noted_after ⟨template, context, []⟩)
  | track asked works =>
      have fresh : Begins names context.beginTracking := begins.of_data rfl
      have inner := begins_runAll works fresh
      rw [run]
      split
      · exact inner.of_data rfl
      · exact inner.of_data rfl
  | temporarily bindings reserve works =>
      have inner := begins_runAll works (begins_bind bindings reserve begins.distinct)
      exact begins_unbind bindings reserve begins.first inner

theorem begins_runAll (works : List Work) {names : List String} {context : Context}
    (begins : Begins names context) : Begins names (runAll works context) := by
  match works with
  | [] => exact begins
  | work :: rest => exact begins_runAll rest (begins_run work begins)

end

/-- Whatever is done while names are bound, when they are taken back the names of before stand where
they stood, and the names that came meanwhile follow, turned round once for each name taken out. So
all keep the order that they had just before if and only if none came meanwhile, or their number
divides that of the names taken out. -/
theorem released_in_order_iff (context : Context)
    (distinct : (Entries.keys context.data).Nodup) (bindings : Bindings) (reserve : Bool)
    (works : List Work) :
    let fresh := bindings.fresh context
    let last := runAll works (context.bind bindings.entries reserve).1
    let released := last.unbind (context.bind bindings.entries reserve).2
    ∃ later moved, last.keys = context.keys ++ fresh ++ later ∧
      released.keys = context.keys ++ moved ∧ moved.rotate fresh.length = later ∧
      (released.keys.Sublist last.keys ↔ later = [] ∨ later.length ∣ fresh.length) := by
  intro fresh last released
  have begins : Begins (context.keys ++ fresh) last :=
    begins_runAll works (begins_bind bindings reserve distinct)
  obtain ⟨later, whole⟩ := begins.first
  obtain ⟨moved, freed, turned⟩ := keys_unbind bindings reserve begins.distinct whole.symm
  refine ⟨later, moved, whole.symm, freed, turned, ?_⟩
  have apart : (context.keys ++ fresh ++ later).Nodup := whole ▸ begins.distinct
  have same : moved.Perm later := turned ▸ (List.rotate_perm moved fresh.length).symm
  have single : moved.Nodup := same.nodup_iff.mpr (List.nodup_append.mp apart).2.1
  rw [freed, ← whole, sublist_append_iff apart same]
  calc moved = later
      ↔ moved.rotate fresh.length = moved := by rw [turned, eq_comm]
    _ ↔ fresh.length % moved.length = 0 ∨ moved = [] := single.rotate_eq_self_iff
    _ ↔ later = [] ∨ later.length ∣ fresh.length := by
        rw [or_comm, ← Nat.dvd_iff_mod_eq_zero, same.length_eq, ← List.length_eq_zero_iff,
          same.length_eq, List.length_eq_zero_iff]

open MergeCall (counters loopItem emptyMemory)

/-- A merge of new variables under the names. -/
def arrival (names : List String) : Work :=
  .merge emptyMemory
    (.step (.update (Context.ofEntries {} (names.map fun name => (name, .int 1))) false))

/-- A member and its key, the one under a name that is taken. -/
def pair : Bindings := ⟨[("item", .ofLocal (.int 1)), ("key", .ofLocal (.string "a"))], by decide⟩

/-- One variable comes while one new name is bound, and another goes with a scope within. -/
theorem arrival_released_in_order :
    let bound := counters.bind pair.entries true
    let last := runAll [arrival ["more"], .temporarily loopItem false [.read (.select "item")]]
      bound.1
    (Entries.keys counters.data).Nodup ∧ last.keys = ["item", "rates", "key", "more"] ∧
      (last.unbind bound.2).keys.Sublist last.keys := by
  intro bound last
  have distinct : (Entries.keys counters.data).Nodup := by decide
  have whole : last.keys = ["item", "rates", "key", "more"] := by cbv
  obtain ⟨later, moved, split, -, -, ordered⟩ := released_in_order_iff counters distinct pair true
    [arrival ["more"], .temporarily loopItem false [.read (.select "item")]]
  have count : later.length = 1 := by
    have lengths := congrArg List.length (whole.symm.trans split)
    have front : (counters.keys ++ pair.fresh counters).length = 3 := by decide
    rw [List.length_append, front, List.length_cons, List.length_cons, List.length_cons,
      List.length_singleton] at lengths
    omega
  exact ⟨distinct, whole, ordered.mpr (Or.inr (count ▸ one_dvd _))⟩

/-- Of two variables that come while one new name is bound, the later one stands first when the name
is taken out. -/
theorem not_released_in_order :
    ¬ ∀ (context : Context), (Entries.keys context.data).Nodup →
      ∀ (bindings : Bindings) (reserve : Bool) (works : List Work),
        let last := runAll works (context.bind bindings.entries reserve).1
        (last.unbind (context.bind bindings.entries reserve).2).keys.Sublist last.keys := by
  intro always
  have ordered := always {} (by decide) loopItem true [arrival ["a", "b"]]
  have last : (runAll [arrival ["a", "b"]] (({} : Context).bind loopItem.entries true).1).keys =
      ["item", "a", "b"] := by cbv
  have released :
      ((runAll [arrival ["a", "b"]] (({} : Context).bind loopItem.entries true).1).unbind
        (({} : Context).bind loopItem.entries true).2).keys = ["b", "a"] := by cbv
  dsimp only at ordered
  rw [last, released] at ordered
  exact absurd ordered (by decide)

end Work

end StageTemplates
