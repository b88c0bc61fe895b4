import Mathlib.Data.List.Nodup
import StageTemplates.Proofs.Entries

set_option autoImplicit false

/-!
Entries that name each of their values once, whatever their order.
-/
namespace StageTemplates

namespace Entries

variable {α : Type}

theorem value?_eq_some_iff {entries : Entries α} (distinct : (keys entries).Nodup) {key : String}
    {value : α} : value? key entries = some value ↔ (key, value) ∈ entries :=
  ⟨mem_of_value?, value?_of_mem distinct⟩

theorem nodup_keys_perm {first second : Entries α} (same : first.Perm second) :
    (keys first).Nodup ↔ (keys second).Nodup := (same.map Prod.fst).nodup_iff

theorem value?_perm {first second : Entries α} (same : first.Perm second)
    (distinct : (keys first).Nodup) (key : String) : value? key first = value? key second := by
  apply Option.ext
  intro value
  rw [value?_eq_some_iff distinct, value?_eq_some_iff ((nodup_keys_perm same).mp distinct),
    same.mem_iff]

/-- Names that stand for the same in both leave no difference but in the order. -/
theorem perm_of_value? {first second : Entries α} (distinct : (keys first).Nodup)
    (distinct' : (keys second).Nodup) (same : ∀ key, value? key first = value? key second) :
    first.Perm second := by
  refine (List.perm_ext_iff_of_nodup (.of_map _ distinct) (.of_map _ distinct')).mpr ?_
  rintro ⟨key, value⟩
  rw [← value?_eq_some_iff distinct, ← value?_eq_some_iff distinct', same key]

theorem swapRemove_perm (key : String) (entries : Entries α) :
    (swapRemove key entries).Perm (erase key entries) := by
  induction entries with
  | nil => exact .refl _
  | cons entry rest ih =>
      obtain ⟨name, value⟩ := entry
      rw [swapRemove, erase]
      split
      · rcases rest.eq_nil_or_concat with rfl | ⟨front, last, rfl⟩
        · exact .refl _
        · rw [List.concat_eq_append, List.getLast?_concat, List.dropLast_concat]
          exact (List.perm_append_singleton last front).symm
      · exact ih.cons (name, value)

variable {entries : Entries α} (distinct : (keys entries).Nodup)
include distinct

theorem nodup_keys_swapRemove (key : String) : (keys (swapRemove key entries)).Nodup := by
  rw [nodup_keys_perm (swapRemove_perm key entries), keys_erase]
  exact distinct.erase key

/-- Taking a name out leaves the others what they stand for. -/
theorem value?_swapRemove (key other : String) :
    value? other (swapRemove key entries) = if other = key then none else value? other entries := by
  rw [value?_perm (swapRemove_perm key entries) (nodup_keys_swapRemove distinct key)]
  split
  · next same =>
      rw [value?_eq_none_iff, keys_erase, same]
      exact distinct.not_mem_erase
  · next different => exact value?_erase_of_ne different entries

theorem nodup_keys_foldl_swapRemove (names : List String) :
    (keys (names.foldl (fun entries key => swapRemove key entries) entries)).Nodup := by
  induction names generalizing entries with
  | nil => exact distinct
  | cons key rest ih => exact ih (nodup_keys_swapRemove distinct key)

theorem value?_foldl_swapRemove (names : List String) (other : String) :
    value? other (names.foldl (fun entries key => swapRemove key entries) entries) =
      if other ∈ names then none else value? other entries := by
  induction names generalizing entries with
  | nil => rfl
  | cons key rest ih =>
      rw [List.foldl_cons, ih (nodup_keys_swapRemove distinct key), value?_swapRemove distinct]
      by_cases same : other = key
      · simp [same]
      · simp [same]

end Entries

end StageTemplates
