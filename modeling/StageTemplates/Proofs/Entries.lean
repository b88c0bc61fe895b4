import Mathlib.Data.List.Rotate
import StageTemplates.Entries

set_option autoImplicit false

/-!
Laws of writing entries and taking them out.
-/
namespace StageTemplates

namespace Entries

variable {α : Type}

@[simp] theorem keys_nil : keys ([] : Entries α) = [] := rfl

@[simp] theorem keys_cons (entry : String × α) (rest : Entries α) :
    keys (entry :: rest) = entry.1 :: keys rest := rfl

@[simp] theorem keys_append (first second : Entries α) :
    keys (first ++ second) = keys first ++ keys second := List.map_append

@[simp] theorem putAll_nil (into : Entries α) : putAll into [] = into := rfl

@[simp] theorem putAll_cons (into : Entries α) (entry : String × α) (rest : Entries α) :
    putAll into (entry :: rest) = putAll (put entry.1 entry.2 into) rest := rfl

theorem putAll_append (into first second : Entries α) :
    putAll into (first ++ second) = putAll (putAll into first) second := by
  simp only [putAll, List.foldl_append]

theorem mem_keys_of_mem {key : String} {value : α} {entries : Entries α}
    (present : (key, value) ∈ entries) : key ∈ keys entries :=
  List.mem_map_of_mem present

theorem mem_keys_of_value? {key : String} {value : α} {entries : Entries α}
    (found : value? key entries = some value) : key ∈ keys entries :=
  mem_keys_of_mem (mem_of_value? found)

/-- With distinct names every entry is the one found under its name. -/
theorem value?_of_mem {key : String} {value : α} {entries : Entries α}
    (distinct : (keys entries).Nodup) (present : (key, value) ∈ entries) :
    value? key entries = some value := by
  induction entries with
  | nil => simp at present
  | cons entry rest ih =>
      obtain ⟨name, old⟩ := entry
      rw [keys_cons, List.nodup_cons] at distinct
      rcases List.mem_cons.mp present with same | later
      · rw [← same, value?_cons_self]
      · have other : name ≠ key := by
          intro same
          subst same
          exact distinct.1 (mem_keys_of_mem later)
        rw [value?_cons_of_ne other]
        exact ih distinct.2 later

theorem value?_append_of_mem {key : String} {first : Entries α}
    (present : key ∈ keys first) (second : Entries α) :
    value? key (first ++ second) = value? key first := by
  induction first with
  | nil => simp at present
  | cons entry rest ih =>
      obtain ⟨name, value⟩ := entry
      by_cases same : name = key
      · simp [value?, same]
      · have later : key ∈ keys rest := by simpa [Ne.symm same] using present
        rw [List.cons_append, value?_cons_of_ne same, value?_cons_of_ne same]
        exact ih later

theorem put_append_of_mem {key : String} {first : Entries α} (present : key ∈ keys first)
    (value : α) (second : Entries α) :
    put key value (first ++ second) = put key value first ++ second := by
  induction first with
  | nil => simp at present
  | cons entry rest ih =>
      obtain ⟨name, old⟩ := entry
      by_cases same : name = key
      · simp [put, same]
      · have later : key ∈ keys rest := by simpa [Ne.symm same] using present
        simp only [List.cons_append, put, same, if_false, ih later]

/-- Writing a name that is there moves no name. -/
theorem keys_put_of_mem {key : String} {entries : Entries α} (present : key ∈ keys entries)
    (value : α) : keys (put key value entries) = keys entries := by
  rw [keys_put, if_pos ((has_eq_true_iff key entries).mpr present)]

theorem mem_keys_put (key other : String) (value : α) (entries : Entries α) :
    other ∈ keys (put key value entries) ↔ other = key ∨ other ∈ keys entries := by
  rw [keys_put]
  split
  · next present =>
      rw [has_eq_true_iff] at present
      constructor
      · exact Or.inr
      · rintro (same | member)
        · exact same ▸ present
        · exact member
  · rw [List.mem_append, List.mem_singleton, or_comm]

theorem mem_keys_putAll (other : String) (into added : Entries α) :
    other ∈ keys (putAll into added) ↔ other ∈ keys into ∨ other ∈ keys added := by
  induction added generalizing into with
  | nil => simp
  | cons entry rest ih =>
      rw [putAll_cons, ih, mem_keys_put, keys_cons, List.mem_cons]
      constructor
      · rintro ((same | member) | later)
        · exact Or.inr (Or.inl same)
        · exact Or.inl member
        · exact Or.inr (Or.inr later)
      · rintro (member | same | later)
        · exact Or.inl (Or.inr member)
        · exact Or.inl (Or.inl same)
        · exact Or.inr later

/-- Writing names that are there moves none of them. -/
theorem keys_putAll_of_subset {into added : Entries α} (present : keys added ⊆ keys into) :
    keys (putAll into added) = keys into := by
  induction added generalizing into with
  | nil => rfl
  | cons entry rest ih =>
      rw [keys_cons, List.cons_subset] at present
      have same := keys_put_of_mem present.1 entry.2
      rw [putAll_cons, ih (same ▸ present.2), same]

theorem put_put_self (key : String) (first second : α) (entries : Entries α) :
    put key second (put key first entries) = put key second entries := by
  induction entries with
  | nil => simp [put]
  | cons entry rest ih =>
      obtain ⟨name, old⟩ := entry
      by_cases same : name = key <;> simp [put, same, ih]

/-- Writing what is there already changes nothing. -/
theorem put_of_value? {key : String} {value : α} {entries : Entries α}
    (found : value? key entries = some value) : put key value entries = entries := by
  induction entries with
  | nil => simp at found
  | cons entry rest ih =>
      obtain ⟨name, old⟩ := entry
      by_cases same : name = key
      · simp only [value?, same, if_true, Option.some.injEq] at found
        simp [put, same, found]
      · rw [value?_cons_of_ne same] at found
        simp only [put, same, if_false, ih found]

/-- A name that is there may be written before or after another. -/
theorem put_comm {key other : String} (different : key ≠ other) {entries : Entries α}
    (present : key ∈ keys entries) (first second : α) :
    put other second (put key first entries) = put key first (put other second entries) := by
  induction entries with
  | nil => simp at present
  | cons entry rest ih =>
      obtain ⟨name, old⟩ := entry
      by_cases here : name = key
      · subst here
        simp [put, different]
      · have later : key ∈ keys rest := by simpa [Ne.symm here] using present
        by_cases there : name = other
        · subst there
          simp [put, here]
        · simp only [put, here, there, if_false, ih later]

theorem put_putAll_comm {key : String} {entries added : Entries α}
    (present : key ∈ keys entries) (apart : key ∉ keys added) (value : α) :
    putAll (put key value entries) added = put key value (putAll entries added) := by
  induction added generalizing entries with
  | nil => rfl
  | cons entry rest ih =>
      rw [keys_cons, List.mem_cons, not_or] at apart
      have still : key ∈ keys (put entry.1 entry.2 entries) := by
        rw [mem_keys_put]
        exact Or.inr present
      rw [putAll_cons, putAll_cons, put_comm apart.1 present, ih still apart.2]

theorem value?_putAll_of_not_mem {key : String} {added : Entries α}
    (apart : key ∉ keys added) (entries : Entries α) :
    value? key (putAll entries added) = value? key entries := by
  induction added generalizing entries with
  | nil => rfl
  | cons entry rest ih =>
      rw [keys_cons, List.mem_cons, not_or] at apart
      rw [putAll_cons, ih apart.2, value?_put_of_ne apart.1]

/-- Of values written one after the other the last one counts. -/
theorem value?_putAll (key : String) (into added : Entries α) :
    value? key (putAll into added) = (value? key (ofList added)).or (value? key into) := by
  induction added generalizing into with
  | nil => rfl
  | cons entry rest ih =>
      have first := ih (put entry.1 entry.2 into)
      have fresh : value? key (ofList (entry :: rest)) =
          (value? key (ofList rest)).or (value? key [entry]) := ih [entry]
      rw [putAll_cons, first, fresh, Option.or_assoc, value?_put]
      by_cases same : key = entry.1
      · simp [value?, same]
      · simp [value?, same, Ne.symm same]

theorem mem_keys_ofList (key : String) (entries : List (String × α)) :
    key ∈ keys (ofList entries) ↔ key ∈ keys entries := by
  rw [ofList, mem_keys_putAll]
  simp

/-- New names under distinct keys come to stand at the end, in their order. -/
theorem putAll_of_fresh {added : Entries α} (distinct : (keys added).Nodup)
    {entries : Entries α} (fresh : ∀ name ∈ keys added, name ∉ keys entries) :
    putAll entries added = entries ++ added := by
  induction added generalizing entries with
  | nil => simp
  | cons entry rest ih =>
      rw [keys_cons, List.nodup_cons] at distinct
      have first : entry.1 ∉ keys entries := fresh entry.1 (by simp)
      rw [putAll_cons, put_of_not_mem first, ih distinct.2, List.append_assoc,
        List.singleton_append]
      intro name member
      rw [keys_append, List.mem_append, keys_cons, keys_nil, List.mem_singleton, not_or]
      refine ⟨fresh name (by simp [member]), ?_⟩
      intro same
      exact distinct.1 (same ▸ member)

theorem ofList_of_nodup {entries : Entries α} (distinct : (keys entries).Nodup) :
    ofList entries = entries := by
  rw [ofList, putAll_of_fresh distinct (by simp), List.nil_append]

/-- Entries stay as they are written if and only if no two have one name. -/
theorem ofList_eq_self_iff {entries : Entries α} :
    ofList entries = entries ↔ (keys entries).Nodup := by
  constructor
  · intro same
    rw [← same]
    exact nodup_keys_ofList entries
  · exact ofList_of_nodup

/-- What stands among entries after a writing was written, or stood there before. -/
theorem mem_put {key : String} {value : α} {entries : Entries α}
    {entry : String × α} (member : entry ∈ put key value entries) :
    entry = (key, value) ∨ entry ∈ entries := by
  induction entries with
  | nil => exact Or.inl (List.mem_singleton.mp member)
  | cons first rest ih =>
      obtain ⟨name, old⟩ := first
      by_cases same : name = key
      · rw [put, if_pos same, same] at member
        exact (List.mem_cons.mp member).imp_right (List.mem_cons_of_mem _)
      · rw [put, if_neg same] at member
        rcases List.mem_cons.mp member with here | later
        · exact Or.inr (here ▸ List.mem_cons_self)
        · exact (ih later).imp_right (List.mem_cons_of_mem _)

theorem forall_put {holds : α → Prop} {key : String} {value : α} {entries : Entries α}
    (one : holds value) (all : ∀ entry ∈ entries, holds entry.2) :
    ∀ entry ∈ put key value entries, holds entry.2 := by
  intro entry member
  rcases mem_put member with rfl | old
  · exact one
  · exact all entry old

theorem forall_putAll {holds : α → Prop} {into added : Entries α}
    (old : ∀ entry ∈ into, holds entry.2) (new : ∀ entry ∈ added, holds entry.2) :
    ∀ entry ∈ putAll into added, holds entry.2 := by
  induction added generalizing into with
  | nil => exact old
  | cons first rest ih =>
      rw [List.forall_mem_cons] at new
      exact ih (forall_put new.1 old) new.2

theorem forall_ofList {holds : α → Prop} {entries : List (String × α)}
    (all : ∀ entry ∈ entries, holds entry.2) : ∀ entry ∈ ofList entries, holds entry.2 :=
  forall_putAll (by simp) all

/-- One more name comes behind the others, unless it is one of them. -/
theorem eraseDups_concat (names : List String) (key : String) :
    (names ++ [key]).eraseDups =
      if key ∈ names then names.eraseDups else names.eraseDups ++ [key] := by
  rw [List.eraseDups_append]
  by_cases present : key ∈ names <;> simp [present, List.removeAll, List.eraseDups_cons]

/-- Names are held in the order of their first occurrence. -/
theorem keys_put_of_eraseDups {entries : Entries α} {names : List String}
    (held : keys entries = names.eraseDups) (key : String) (value : α) :
    keys (put key value entries) = (names ++ [key]).eraseDups := by
  rw [keys_put, eraseDups_concat, held]
  by_cases present : key ∈ names <;> simp [present, has_eq_true_iff, held]

theorem keys_putAll_of_eraseDups {into : Entries α} {names : List String}
    (held : keys into = names.eraseDups) (added : Entries α) :
    keys (putAll into added) = (names ++ keys added).eraseDups := by
  induction added generalizing into names with
  | nil => simpa using held
  | cons entry rest ih =>
      have later := ih (keys_put_of_eraseDups held entry.1 entry.2)
      rwa [List.append_assoc] at later

theorem keys_ofList (entries : Entries α) : keys (ofList entries) = (keys entries).eraseDups := by
  have empty : keys ([] : Entries α) = ([] : List String).eraseDups := rfl
  exact keys_putAll_of_eraseDups empty entries

theorem keys_erase (key : String) (entries : Entries α) :
    keys (erase key entries) = (keys entries).erase key := by
  induction entries with
  | nil => rfl
  | cons entry rest ih =>
      obtain ⟨name, value⟩ := entry
      by_cases same : name = key
      · simp [erase, same]
      · rw [keys_cons, List.erase_cons_tail (by simpa using same), ← ih]
        simp [erase, same]

/-- The last entry before the others. -/
def lastFirst (entries : Entries α) : Entries α := entries.getLast?.toList ++ entries.dropLast

theorem rotate_keys_lastFirst (entries : Entries α) :
    (keys (lastFirst entries)).rotate 1 = keys entries := by
  rcases entries.eq_nil_or_concat with rfl | ⟨front, last, rfl⟩
  · rfl
  · simp [lastFirst, List.concat_eq_append, keys]

/-- The last of all entries takes the place of the one that is taken out. -/
theorem swapRemove_append_cons {key : String} {front : Entries α} (absent : key ∉ keys front)
    (value : α) (rest : Entries α) :
    swapRemove key (front ++ (key, value) :: rest) = front ++ lastFirst rest := by
  induction front with
  | nil =>
      rcases rest.eq_nil_or_concat with rfl | ⟨others, last, rfl⟩
      · simp [swapRemove, lastFirst]
      · simp [swapRemove, lastFirst, List.concat_eq_append]
  | cons entry others ih =>
      obtain ⟨name, old⟩ := entry
      rw [keys_cons, List.mem_cons, not_or] at absent
      simp [swapRemove, Ne.symm absent.1, ih absent.2]

/-- Taking out entries that stand together, the last one first, turns those behind them round once
for each. -/
theorem foldl_swapRemove_rotate (kept added later : Entries α) (distinct : (keys added).Nodup)
    (fresh : ∀ name ∈ keys added, name ∉ keys kept) :
    ∃ moved, (keys added).reverse.foldl (fun entries key => swapRemove key entries)
        (kept ++ added ++ later) = kept ++ moved ∧
      (keys moved).rotate added.length = keys later := by
  induction added using List.reverseRecOn generalizing later with
  | nil => exact ⟨later, by simp, by simp⟩
  | append_singleton front last ih =>
      obtain ⟨name, value⟩ := last
      rw [keys_append, List.nodup_append] at distinct
      rw [keys_append, List.forall_mem_append] at fresh
      obtain ⟨single, -, other⟩ := distinct
      have absent : name ∉ keys (kept ++ front) := by
        rw [keys_append, List.mem_append, not_or]
        exact ⟨fresh.2 name (by simp), fun member => other name member name (by simp) rfl⟩
      obtain ⟨moved, taken, turned⟩ := ih (lastFirst later) single fresh.1
      -- The last of the added entries goes first, and what is behind it turns.
      refine ⟨moved, ?_, ?_⟩
      · have first : swapRemove name (kept ++ (front ++ [(name, value)]) ++ later) =
            kept ++ front ++ lastFirst later := by
          rw [← swapRemove_append_cons absent value later]
          simp
        have order : (keys (front ++ [(name, value)])).reverse = name :: (keys front).reverse := by
          simp
        rw [order, List.foldl_cons, first]
        exact taken
      · rw [List.length_append, List.length_singleton, ← List.rotate_rotate, turned,
          rotate_keys_lastFirst]

/-- Names that were added at the end can be taken out from the last one on. -/
theorem foldl_swapRemove_append (kept added : Entries α) (distinct : (keys added).Nodup)
    (fresh : ∀ name ∈ keys added, name ∉ keys kept) :
    (keys added).reverse.foldl (fun entries key => swapRemove key entries) (kept ++ added) =
      kept := by
  obtain ⟨moved, taken, turned⟩ := foldl_swapRemove_rotate kept added [] distinct fresh
  have nothing : moved = [] := by
    rw [keys_nil, List.rotate_eq_nil_iff] at turned
    exact List.map_eq_nil_iff.mp turned
  rwa [nothing, List.append_nil, List.append_nil] at taken

end Entries

end StageTemplates
