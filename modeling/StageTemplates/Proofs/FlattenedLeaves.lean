import Mathlib
import StageTemplates.Proofs.DistinctNames
import StageTemplates.Proofs.DottedPaths
import StageTemplates.Shell.Arguments

set_option autoImplicit false

/-!
A flattened dictionary and its leaves, the scalars and lists in it. Of leaves whose ways are written
alike the last gives the value, so all are kept if and only if no two ways are written alike.
-/
namespace StageTemplates

namespace Value

/-- What a way through dictionaries leads to. -/
def at? : (way : List String) → Value → Option Value
  | [], value => some value
  | key :: way, .dict entries => (Entries.value? key entries).bind (at? way)
  | _ :: _, _ => none

mutual

/-- The parts of a value that are no dictionaries, from top to bottom, each with its way. -/
def leaves : Value → List (List String × Value)
  | .dict entries => leavesOf entries
  | .scalar value => [([], .scalar value)]
  | .list items => [([], .list items)]
termination_by structural value => value

def leavesOf : List (String × Value) → List (List String × Value)
  | [] => []
  | (key, value) :: rest =>
      value.leaves.map (fun leaf => (key :: leaf.1, leaf.2)) ++ leavesOf rest
termination_by structural entries => entries

end

/-- A way as the name of an entry. -/
def dotted (way : List String) : String := ".".intercalate way

/-- Leaves as entries, with what leads to them before their ways. -/
def entriesBelow (front : List String) (leaves : List (List String × Value)) :
    List (String × Value) :=
  leaves.map fun leaf => (dotted (front ++ leaf.1), leaf.2)

theorem entriesBelow_append (front : List String) (first second : List (List String × Value)) :
    entriesBelow front (first ++ second) =
      entriesBelow front first ++ entriesBelow front second := List.map_append

theorem entriesBelow_map_cons (front : List String) (key : String)
    (leaves : List (List String × Value)) :
    entriesBelow front (leaves.map fun leaf => (key :: leaf.1, leaf.2)) =
      entriesBelow (front ++ [key]) leaves := by
  simp [entriesBelow, Function.comp_def]

/-- The leaves of a dictionary as entries under their dotted ways. -/
def dottedLeaves (entries : List (String × Value)) : List (String × Value) :=
  entriesBelow [] (leavesOf entries)

section Flattening

/-- The path that is handed down for a way. -/
def pathOf? (way : List String) : Option String := if way = [] then none else some (dotted way)

theorem childName_pathOf? (way : List String) (key : String) :
    childName (pathOf? way) key = dotted (way ++ [key]) := by
  unfold pathOf?
  split
  · next nothing =>
      rw [nothing]
      simp [childName, dotted]
  · next some =>
      rw [dotted, dotted, String.intercalate_append_of_ne_nil some (List.cons_ne_nil key []),
        String.intercalate_singleton]
      rfl

mutual

theorem flattenInto_eq (way : List String) (key : String) (found : Entries Value)
    (value : Value) :
    flattenInto (dotted (way ++ [key])) found value =
      Entries.putAll found (entriesBelow (way ++ [key]) value.leaves) := by
  match value with
  | .scalar value => simp [flattenInto, leaves, entriesBelow]
  | .list items => simp [flattenInto, leaves, entriesBelow]
  | .dict entries =>
      have path : pathOf? (way ++ [key]) = some (dotted (way ++ [key])) := if_neg (by simp)
      rw [flattenInto, leaves, ← path, flattenEntries_eq (way ++ [key]) found entries]

/-- Flattening writes leaf after leaf under its dotted way. -/
theorem flattenEntries_eq (way : List String) (found : Entries Value)
    (entries : List (String × Value)) :
    flattenEntries (pathOf? way) found entries =
      Entries.putAll found (entriesBelow way (leavesOf entries)) := by
  match entries with
  | [] => rfl
  | (key, value) :: rest =>
      rw [flattenEntries, childName_pathOf?, flattenInto_eq way key found value,
        flattenEntries_eq way _ rest, leavesOf, entriesBelow_append, entriesBelow_map_cons,
        Entries.putAll_append]

end

theorem flatten_eq_ofList (entries : List (String × Value)) :
    flatten entries = Entries.ofList (dottedLeaves entries) := flattenEntries_eq [] [] entries

/-- No leaf is lost or moved if and only if all are written under names of their own. -/
theorem flatten_eq_dottedLeaves_iff {entries : List (String × Value)} :
    flatten entries = dottedLeaves entries ↔ (Entries.keys (dottedLeaves entries)).Nodup := by
  rw [flatten_eq_ofList, Entries.ofList_eq_self_iff]

end Flattening

section Ways

theorem mem_leavesOf {entries : List (String × Value)} {way : List String} {leaf : Value} :
    (way, leaf) ∈ leavesOf entries ↔
      ∃ key rest value, way = key :: rest ∧ (key, value) ∈ entries ∧
        (rest, leaf) ∈ value.leaves := by
  induction entries with
  | nil => simp [leavesOf]
  | cons entry others ih =>
      obtain ⟨name, first⟩ := entry
      rw [leavesOf, List.mem_append, ih, List.mem_map]
      constructor
      · rintro (⟨⟨rest, found⟩, member, same⟩ | ⟨key, rest, value, split, member, below⟩)
        · cases same
          exact ⟨name, rest, first, rfl, List.mem_cons_self, member⟩
        · exact ⟨key, rest, value, split, List.mem_cons_of_mem _ member, below⟩
      · rintro ⟨key, rest, value, split, member, below⟩
        rcases List.mem_cons.mp member with same | later
        · cases same
          exact Or.inl ⟨(rest, leaf), below, by rw [split]⟩
        · exact Or.inr ⟨key, rest, value, split, later, below⟩

theorem leaves_of_plain {value : Value} (plain : value.isDict = false) :
    value.leaves = [([], value)] := by
  cases value with
  | scalar value => rfl
  | list items => rfl
  | dict entries => cases plain

/-- The leaves are what ways lead to, and no dictionary is among them. -/
theorem mem_leaves_iff {value leaf : Value} (distinct : value.Distinct) {way : List String} :
    (way, leaf) ∈ value.leaves ↔ value.at? way = some leaf ∧ leaf.isDict = false := by
  induction way generalizing value with
  | nil =>
      rw [at?, Option.some.injEq]
      cases kind : value.isDict with
      | false =>
          rw [leaves_of_plain kind, List.mem_singleton, Prod.mk.injEq]
          constructor
          · rintro ⟨-, rfl⟩
            exact ⟨rfl, kind⟩
          · rintro ⟨rfl, -⟩
            exact ⟨rfl, rfl⟩
      | true =>
          constructor
          · intro member
            cases value with
            | scalar value => cases kind
            | list items => cases kind
            | dict entries =>
                obtain ⟨key, rest, value, split, -⟩ := mem_leavesOf.mp member
                cases split
          · rintro ⟨rfl, plain⟩
            cases kind.symm.trans plain
  | cons key rest ih =>
      cases value with
      | scalar value => simp [leaves, at?]
      | list items => simp [leaves, at?]
      | dict entries =>
          obtain ⟨names, parts⟩ := (distinct_dict entries).mp distinct
          rw [leaves, mem_leavesOf, at?]
          constructor
          · rintro ⟨name, others, value, split, member, below⟩
            cases split
            rw [Entries.value?_of_mem names member]
            exact (ih (parts _ member)).mp below
          · rintro ⟨found, plain⟩
            obtain ⟨value, here, below⟩ := Option.bind_eq_some_iff.mp found
            have member := Entries.mem_of_value? here
            exact ⟨key, rest, value, rfl, member, (ih (parts _ member)).mpr ⟨below, plain⟩⟩

mutual

/-- No way is taken twice. -/
theorem nodup_ways (value : Value) (distinct : value.Distinct) :
    (value.leaves.map Prod.fst).Nodup := by
  match value with
  | .scalar value => simp [leaves]
  | .list items => simp [leaves]
  | .dict entries =>
      obtain ⟨names, parts⟩ := (distinct_dict entries).mp distinct
      exact nodup_waysOf entries names parts

theorem nodup_waysOf (entries : List (String × Value)) (names : (Entries.keys entries).Nodup)
    (parts : ∀ entry ∈ entries, entry.2.Distinct) :
    ((leavesOf entries).map Prod.fst).Nodup := by
  match entries with
  | [] => simp [leavesOf]
  | (key, value) :: rest =>
      rw [Entries.keys_cons, List.nodup_cons] at names
      rw [List.forall_mem_cons] at parts
      have here := (nodup_ways value parts.1).map (List.cons_injective (a := key))
      have there := nodup_waysOf rest names.2 parts.2
      rw [leavesOf, List.map_append, List.map_map, List.nodup_append]
      refine ⟨by simpa [Function.comp_def] using here, there, ?_⟩
      -- Ways of different entries differ in their first name.
      intro way first other second same
      obtain ⟨leaf, -, rfl⟩ := List.mem_map.mp first
      obtain ⟨⟨others, last⟩, member, rfl⟩ := List.mem_map.mp second
      obtain ⟨name, below, found, split, present, -⟩ := mem_leavesOf.mp member
      have equal : key = name := (List.cons.inj (same.trans split)).1
      exact names.1 (equal ▸ Entries.mem_keys_of_mem present)

end

theorem keys_dottedLeaves (entries : List (String × Value)) :
    Entries.keys (dottedLeaves entries) = ((leavesOf entries).map Prod.fst).map dotted := by
  simp [dottedLeaves, entriesBelow, Entries.keys, Function.comp_def]

/-- Where no name has a dot in it, different ways are written differently. -/
theorem nodup_keys_dottedLeaves {entries : List (String × Value)}
    (distinct : (dict entries).Distinct)
    (plain : ∀ leaf ∈ leavesOf entries, ∀ key ∈ leaf.1, '.' ∉ key.toList) :
    (Entries.keys (dottedLeaves entries)).Nodup := by
  obtain ⟨names, parts⟩ := (distinct_dict entries).mp distinct
  rw [keys_dottedLeaves]
  refine (nodup_waysOf entries names parts).map_on ?_
  have written : ∀ way ∈ (leavesOf entries).map Prod.fst,
      ((dotted way).toList.splitOn '.').map String.ofList = way := by
    intro way member
    obtain ⟨⟨way, leaf⟩, listed, rfl⟩ := List.mem_map.mp member
    obtain ⟨key, rest, value, split, -, -⟩ := mem_leavesOf.mp listed
    exact splitOn_intercalate "." '.' rfl (by simp [split]) (plain _ listed)
  intro first one second other same
  rw [← written first one, same, written second other]

end Ways

/-- Flattening writes the leaves of a dictionary one after another, from top to bottom, each under
its dotted way, and each leaf has a way of its own. None is lost if and only if no two of the ways
are written alike, and so none is if no name has a dot in it. -/
theorem flatten_keeps_leaves_iff (entries : List (String × Value))
    (distinct : (dict entries).Distinct) :
    (∀ way leaf, (way, leaf) ∈ leavesOf entries ↔
        (dict entries).at? way = some leaf ∧ leaf.isDict = false) ∧
      ((leavesOf entries).map Prod.fst).Nodup ∧
      flatten entries = Entries.ofList (dottedLeaves entries) ∧
      (flatten entries = dottedLeaves entries ↔
        (((leavesOf entries).map Prod.fst).map dotted).Nodup) ∧
      ((∀ leaf ∈ leavesOf entries, ∀ key ∈ leaf.1, '.' ∉ key.toList) →
        flatten entries = dottedLeaves entries) := by
  refine ⟨fun way leaf => mem_leaves_iff distinct, nodup_ways (.dict entries) distinct,
    flatten_eq_ofList entries, ?_, fun plain => ?_⟩
  · rw [flatten_eq_dottedLeaves_iff, keys_dottedLeaves]
  · exact flatten_eq_dottedLeaves_iff.mpr (nodup_keys_dottedLeaves distinct plain)

/-- Options of a run, with names that have a dot at the end or are empty. -/
def runOptions : List (String × Value) :=
  [("model", .dict [("layers", .list [.int 8]), ("", .dict [("width", .int 2)])]),
    ("model.", .int 1), ("none", .dict [])]

theorem runOptions_keep_leaves :
    (dict runOptions).Distinct ∧
      flatten runOptions =
        [("model.layers", .list [.int 8]), ("model..width", .int 2), ("model.", .int 1)] := by
  have distinct : (dict runOptions).Distinct := by decide
  have apart : (((leavesOf runOptions).map Prod.fst).map dotted).Nodup := by decide +kernel
  have kept := (flatten_keeps_leaves_iff runOptions distinct).2.2.2.1.mpr apart
  exact ⟨distinct, kept⟩

/-- A leaf in a dictionary, and one under the name that its way is written as. -/
def crossedOptions : List (String × Value) :=
  [("a", .dict [("b", .int 1)]), ("a.b", .int 2)]

/-- The two have one name, and the first is lost. -/
theorem not_flatten_keeps_leaves :
    ¬ ∀ entries : List (String × Value), (dict entries).Distinct →
      flatten entries = dottedLeaves entries := by
  intro always
  have same := always crossedOptions (by decide)
  have lengths := congrArg List.length same
  exact absurd lengths (by decide +kernel)

end Value

end StageTemplates
