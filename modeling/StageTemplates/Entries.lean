set_option autoImplicit false

/-!
Named values in the order in which their names were first given. Writing a name again keeps its
place; taking one out by `swapRemove` moves the last entry into the free place.
-/
namespace StageTemplates

abbrev Entries (α : Type) := List (String × α)

namespace Entries

variable {α : Type}

def keys (entries : Entries α) : List String := entries.map Prod.fst

/-- The value of the first entry named `key`. -/
def value? (key : String) : Entries α → Option α
  | [] => none
  | (name, value) :: rest => if name = key then some value else value? key rest

def has (key : String) (entries : Entries α) : Bool := (value? key entries).isSome

/-- Replaces the value of `key` where it stands, or adds it at the end. -/
def put (key : String) (value : α) : Entries α → Entries α
  | [] => [(key, value)]
  | (name, old) :: rest =>
      if name = key then (name, value) :: rest else (name, old) :: put key value rest

/-- Takes `key` out; the last entry comes to stand in its place. -/
def swapRemove (key : String) : Entries α → Entries α
  | [] => []
  | (name, value) :: rest =>
      if name = key then
        match rest.getLast? with
        | none => []
        | some last => last :: rest.dropLast
      else (name, value) :: swapRemove key rest

/-- Takes `key` out; the entries after it move up. -/
def erase (key : String) : Entries α → Entries α
  | [] => []
  | (name, value) :: rest => if name = key then rest else (name, value) :: erase key rest

/-- Writes the entries of a list one after the other. -/
def putAll (into : Entries α) (added : List (String × α)) : Entries α :=
  added.foldl (fun entries entry => put entry.1 entry.2 entries) into

def ofList (entries : List (String × α)) : Entries α := putAll [] entries

@[simp] theorem value?_nil (key : String) : value? key ([] : Entries α) = none := rfl

@[simp] theorem value?_cons_self (key : String) (value : α) (rest : Entries α) :
    value? key ((key, value) :: rest) = some value := by
  simp [value?]

theorem value?_cons_of_ne {key name : String} (different : name ≠ key) (value : α)
    (rest : Entries α) : value? key ((name, value) :: rest) = value? key rest := by
  simp [value?, different]

theorem value?_eq_none_iff (key : String) (entries : Entries α) :
    value? key entries = none ↔ key ∉ keys entries := by
  induction entries with
  | nil => simp [keys]
  | cons entry rest ih =>
      obtain ⟨name, value⟩ := entry
      by_cases same : name = key
      · simp [value?, keys, same]
      · simpa [value?, keys, same, Ne.symm same] using ih

theorem has_eq_true_iff (key : String) (entries : Entries α) :
    has key entries = true ↔ key ∈ keys entries := by
  have absent := value?_eq_none_iff key entries
  cases found : value? key entries <;> simp_all [has]

theorem mem_of_value? {key : String} {value : α} {entries : Entries α}
    (found : value? key entries = some value) : (key, value) ∈ entries := by
  induction entries with
  | nil => simp at found
  | cons entry rest ih =>
      obtain ⟨name, old⟩ := entry
      by_cases same : name = key
      · simp only [value?, same, if_true, Option.some.injEq] at found
        simp [same, found]
      · rw [value?_cons_of_ne same] at found
        exact List.mem_cons_of_mem _ (ih found)

@[simp] theorem value?_put_self (key : String) (value : α) (entries : Entries α) :
    value? key (put key value entries) = some value := by
  induction entries with
  | nil => simp [put]
  | cons entry rest ih =>
      obtain ⟨name, old⟩ := entry
      by_cases same : name = key <;> simp [put, value?, same, ih]

theorem value?_put_of_ne {key other : String} (different : other ≠ key) (value : α)
    (entries : Entries α) : value? other (put key value entries) = value? other entries := by
  induction entries with
  | nil => simp [put, value?, Ne.symm different]
  | cons entry rest ih =>
      obtain ⟨name, old⟩ := entry
      by_cases same : name = key
      · subst same; simp [put, value?, Ne.symm different]
      · simp [put, value?, same, ih]

/-- Writing changes what one name stands for. -/
theorem value?_put (key other : String) (value : α) (entries : Entries α) :
    value? other (put key value entries) =
      if other = key then some value else value? other entries := by
  by_cases same : other = key
  · simp [same]
  · simp [same, value?_put_of_ne same]

theorem keys_put (key : String) (value : α) (entries : Entries α) :
    keys (put key value entries) =
      if has key entries then keys entries else keys entries ++ [key] := by
  induction entries with
  | nil => simp [put, keys, has]
  | cons entry rest ih =>
      obtain ⟨name, old⟩ := entry
      by_cases same : name = key
      · simp [put, keys, has, value?, same]
      · simp only [put, keys, has, value?, same, if_false, List.map_cons] at ih ⊢
        rw [ih]
        split <;> simp_all

theorem put_of_not_mem {key : String} {entries : Entries α} (absent : key ∉ keys entries)
    (value : α) : put key value entries = entries ++ [(key, value)] := by
  induction entries with
  | nil => rfl
  | cons entry rest ih =>
      obtain ⟨name, old⟩ := entry
      simp only [keys, List.map_cons, List.mem_cons, not_or] at absent
      simp [put, Ne.symm absent.1, ih absent.2]

theorem nodup_keys_put {entries : Entries α} (distinct : (keys entries).Nodup) (key : String)
    (value : α) : (keys (put key value entries)).Nodup := by
  rw [keys_put]
  split
  · exact distinct
  · next absent =>
      rw [has_eq_true_iff] at absent
      simpa [List.nodup_append, distinct] using fun name member (same : name = key) =>
        absent (same ▸ member)

theorem nodup_keys_putAll {entries : Entries α} (distinct : (keys entries).Nodup)
    (added : List (String × α)) : (keys (putAll entries added)).Nodup := by
  induction added generalizing entries with
  | nil => exact distinct
  | cons entry rest ih => exact ih (nodup_keys_put distinct entry.1 entry.2)

/-- A list made into entries holds each name once. -/
theorem nodup_keys_ofList (entries : List (String × α)) : (keys (ofList entries)).Nodup := by
  have distinct : (keys ([] : Entries α)).Nodup := List.nodup_nil
  exact nodup_keys_putAll distinct entries

theorem value?_erase_of_ne {key other : String} (different : other ≠ key)
    (entries : Entries α) : value? other (erase key entries) = value? other entries := by
  induction entries with
  | nil => rfl
  | cons entry rest ih =>
      obtain ⟨name, value⟩ := entry
      by_cases same : name = key
      · simp [erase, same, value?_cons_of_ne (Ne.symm different)]
      · simp [erase, value?, same, ih]

end Entries

end StageTemplates
