import StageTemplates.Proofs.GroupLooks

set_option autoImplicit false

/-!
Warnings that names bound by a group hide variables. A group is warned of when its members are
looked at for the first time and can be told; nothing that is asked later adds to that.
-/
namespace StageTemplates

namespace Foreach

variable {template : Foreach} {context : Context} {members : Node}

theorem due_group {shadowing : Shadowing} (member : shadowing ∈ template.due context) :
    shadowing.group = template.name := by
  rw [due, Option.mem_toList, Option.bind_eq_some_iff] at member
  obtain ⟨members, -, shadows⟩ := member
  unfold shadowing? at shadows
  split at shadows
  · cases shadows
  · cases shadows
    rfl

/-- The names bound by a group that are variables. -/
def shadowed (context : Context) (members : Node) : List String :=
  (if context.contains itemName then [itemName] else []) ++
    if members.isDict && context.contains keyName then [keyName] else []

theorem filter_due_self (template : Foreach) (context : Context) :
    (template.due context).filter (·.group = template.name) = template.due context := by
  rw [List.filter_eq_self]
  intro shadowing member
  simpa using due_group member

theorem filter_due_of_ne {group : String} (different : group ≠ template.name) :
    (template.due context).filter (·.group = group) = [] := by
  rw [List.filter_eq_nil_iff]
  intro shadowing member
  have own := due_group member
  simpa [own] using Ne.symm different

end Foreach

namespace Resolver

variable {resolver first : Resolver} {seen : List String}

/-- The warnings due for a group. -/
def dueFor (resolver : Resolver) (group : String) : List Shadowing :=
  match Entries.value? group resolver.definitions with
  | some (.foreach template) => template.due resolver.context
  | _ => []

/-- What came of a fresh resolver when the members of some groups were looked at: the templates of
these have their members, and their warnings were given. -/
structure Warned (first : Resolver) (seen : List String) (resolver : Resolver) : Prop where
  kept : Kept first resolver
  members : ∀ group template, Entries.value? group first.definitions = some (.foreach template) →
    ∃ now, Entries.value? group resolver.definitions = some (.foreach now) ∧
      now.members = if group ∈ seen then
        (template.membersIn first.context.data first.context.style).toOption else none
  warnings : ∀ group, resolver.warnings.filter (·.group = group) =
    if group ∈ seen then first.dueFor group else []

theorem Warned.congr {others : List String} (warned : Warned first seen resolver)
    (same : ∀ group, group ∈ seen ↔ group ∈ others) : Warned first others resolver := by
  refine ⟨warned.kept, ?_, ?_⟩
  · intro group template found
    rw [← if_congr (same group) rfl rfl]
    exact warned.members group template found
  · intro group
    rw [warned.warnings, if_congr (same group) rfl rfl]

/-- The template that a group has now, and the one it had at first. -/
theorem Warned.first_of_found (fresh : first.Fresh) (warned : Warned first seen resolver)
    {group : String} {template : Foreach}
    (found : Entries.value? group resolver.definitions = some (.foreach template)) :
    Entries.value? group first.definitions = some (.foreach template.unused) ∧
      template.unused.name = group ∧
      template.members = if group ∈ seen then
        (template.membersIn first.context.data first.context.style).toOption else none := by
  have alike : Entries.value? group (unusedOf first.definitions) =
      some (.foreach template.unused) := by
    rw [← warned.kept.definitions]
    exact value?_unusedOf_of_found found
  rw [value?_unusedOf] at alike
  obtain ⟨definition, there, same⟩ := Option.map_eq_some_iff.mp alike
  have member := Entries.mem_of_value? there
  rw [fresh.unused _ member] at same
  subst same
  obtain ⟨now, again, known⟩ := warned.members group template.unused there
  rw [found] at again
  cases again
  exact ⟨there, fresh.named _ member, known⟩

/-- A look at the members of a group warns if they were not known, and else changes nothing. -/
theorem Warned.look (fresh : first.Fresh) (warned : Warned first seen resolver) {group : String}
    {template : Foreach} {middle : Resolver}
    (found : Entries.value? group resolver.definitions = some (.foreach template))
    (look : Look resolver group template middle) : Warned first (group :: seen) middle := by
  obtain ⟨there, own, known⟩ := warned.first_of_found fresh found
  obtain ⟨kept, members, others, warnings⟩ := look
  rw [warned.kept.context] at members warnings
  have due : first.dueFor group = template.due first.context := by
    rw [dueFor, there]
    exact template.due_unused first.context
  refine ⟨warned.kept.trans kept, ?_, ?_⟩
  · intro other unused atFirst
    by_cases same : other = group
    · subst same
      rw [there] at atFirst
      cases atFirst
      rw [if_pos List.mem_cons_self]
      exact members
    · have rest : (other ∈ group :: seen) ↔ other ∈ seen := by simp [same]
      rw [others other same, if_congr rest rfl rfl]
      exact warned.members other unused atFirst
  · intro other
    rw [warnings, List.filter_append, warned.warnings]
    by_cases same : other = group
    · subst same
      rw [if_pos List.mem_cons_self, due]
      -- What was looked at before is known, or it cannot be told and nothing is due.
      by_cases before : other ∈ seen
      · rw [if_pos before] at known ⊢
        rw [Foreach.nothing_due known, List.filter_nil, List.append_nil]
      · rw [if_neg before] at known ⊢
        rw [known]
        have named : template.name = other := own
        rw [← named]
        exact Foreach.filter_due_self template first.context
    · have apart : other ≠ template.name := fun named => same (named.trans own)
      have nothing : List.filter (·.group = other)
          (if template.members.isSome then [] else template.due first.context) = [] := by
        split
        · rfl
        · exact Foreach.filter_due_of_ne apart
      rw [nothing, List.append_nil]
      simp [same]

namespace Looks

variable {after : Resolver} {groups : List String}

/-- Warnings are given one after the other, and none is taken back. -/
theorem warnings (looks : Looks resolver groups after) (settled : resolver.Settled) :
    resolver.warnings <+: after.warnings := by
  induction looks with
  | nothing resolver => exact List.prefix_refl _
  | group found look later ih =>
      refine List.IsPrefix.trans ?_ (ih look.kept.settled)
      rw [look.warnings]
      exact List.prefix_append _ _
  | record name tracked later ih =>
      exact ih ((Kept.refl settled).track name tracked).settled

theorem warned (fresh : first.Fresh) (looks : Looks resolver groups after)
    (warned : Warned first seen resolver) : Warned first (groups ++ seen) after := by
  induction looks generalizing seen with
  | nothing resolver => exact warned
  | group found look later ih =>
      refine (ih (warned.look fresh found look)).congr fun other => ?_
      simp only [List.mem_append, List.mem_cons]
      tauto
  | record name tracked later ih =>
      exact ih ⟨warned.kept.track name tracked, warned.members, warned.warnings⟩

end Looks

/-- After queries, the groups that one of them looks at are warned of. -/
theorem Warned.askAll (fresh : first.Fresh) (warned : Warned first seen resolver)
    (history : List Query) :
    Warned first (history.flatMap first.looksAt ++ seen) (resolver.askAll history) := by
  induction history generalizing resolver seen with
  | nil => exact warned
  | cons query rest ih =>
      obtain ⟨groups, looks, same⟩ := ask_looks warned.kept.settled query
      rw [warned.kept.looksAt] at same
      refine (ih (looks.warned fresh warned)).congr fun group => ?_
      simp only [List.flatMap_cons, List.mem_append, same]
      tauto

end Resolver

end StageTemplates
