import Mathlib
import StageTemplates.Proofs.Entries
import StageTemplates.Proofs.FileData

set_option autoImplicit false

/-!
What becomes of the entries of mappings when data from YAML are taken as plain data. Entries whose
keys have one text fall together, and the last of them gives the value; otherwise each stays under
the text of its key.
-/
namespace StageTemplates

namespace Yaml

namespace Datum

/-- A list or a mapping, under tags or not. -/
def isCollection : Datum → Bool
  | .scalar _ => false
  | .sequence _ => true
  | .mapping _ => true
  | .tagged _ datum => datum.isCollection
termination_by structural datum => datum

/-- A mapping with these entries stands somewhere in the datum, in a key or not. -/
inductive HasMapping (entries : List (Datum × Datum)) : Datum → Prop where
  | here : HasMapping entries (.mapping entries)
  | item {item : Datum} {items : List Datum} (member : item ∈ items)
      (within : HasMapping entries item) : HasMapping entries (.sequence items)
  | key {entry : Datum × Datum} {others : List (Datum × Datum)} (member : entry ∈ others)
      (within : HasMapping entries entry.1) : HasMapping entries (.mapping others)
  | value {entry : Datum × Datum} {others : List (Datum × Datum)} (member : entry ∈ others)
      (within : HasMapping entries entry.2) : HasMapping entries (.mapping others)
  | tagged {datum : Datum} (tag : TagText) (within : HasMapping entries datum) :
      HasMapping entries (.tagged tag datum)

mutual

/-- The value has all of the datum: items in their order, and each entry in its place, under the
text of its key. -/
def Becomes : Datum → Value → Prop
  | .scalar written, value => value = .scalar (plainData written)
  | .sequence items, .list values => ItemsBecome items values
  | .mapping entries, .dict fields => EntriesBecome entries fields
  | .tagged _ datum, value => datum.Becomes value
  | _, _ => False
termination_by structural datum => datum

def ItemsBecome : List Datum → List Value → Prop
  | [], [] => True
  | item :: items, value :: values => item.Becomes value ∧ ItemsBecome items values
  | _, _ => False
termination_by structural items => items

def EntriesBecome : List (Datum × Datum) → List (String × Value) → Prop
  | [], [] => True
  | (key, datum) :: entries, (name, value) :: fields =>
      (key.keyText? = some name ∧ datum.Becomes value) ∧ EntriesBecome entries fields
  | _, _ => False
termination_by structural entries => entries

end

/-- What holds of scalars, of collections when it holds of all in them, and under tags when it holds
without, holds of all data. -/
@[elab_as_elim]
theorem parts_induction {motive : Datum → Prop} (scalar : ∀ value, motive (.scalar value))
    (sequence : ∀ items, (∀ item ∈ items, motive item) → motive (.sequence items))
    (mapping : ∀ entries, (∀ entry ∈ entries, motive entry.1 ∧ motive entry.2) →
      motive (.mapping entries))
    (tagged : ∀ tag datum, motive datum → motive (.tagged tag datum)) (datum : Datum) :
    motive datum :=
  @Datum.rec motive (fun items => ∀ item ∈ items, motive item)
    (fun entries => ∀ entry ∈ entries, motive entry.1 ∧ motive entry.2)
    (fun entry => motive entry.1 ∧ motive entry.2) scalar sequence mapping tagged (by simp)
    (fun _ _ first later => List.forall_mem_cons.mpr ⟨first, later⟩) (by simp)
    (fun _ _ first later => List.forall_mem_cons.mpr ⟨first, later⟩)
    (fun _ _ key value => ⟨key, value⟩) datum

section Mappings

variable {found entries : List (Datum × Datum)} {items : List Datum}

theorem not_hasMapping_scalar (value : Scalar) : ¬ HasMapping found (.scalar value) := nofun

theorem hasMapping_sequence_iff :
    HasMapping found (.sequence items) ↔ ∃ item ∈ items, HasMapping found item := by
  constructor
  · rintro (_ | ⟨member, within⟩)
    exact ⟨_, member, within⟩
  · rintro ⟨item, member, within⟩
    exact .item member within

theorem hasMapping_mapping_iff :
    HasMapping found (.mapping entries) ↔ found = entries ∨
      ∃ entry ∈ entries, HasMapping found entry.1 ∨ HasMapping found entry.2 := by
  constructor
  · intro within
    cases within with
    | here => exact Or.inl rfl
    | key member within => exact Or.inr ⟨_, member, Or.inl within⟩
    | value member within => exact Or.inr ⟨_, member, Or.inr within⟩
  · rintro (rfl | ⟨entry, member, within | within⟩)
    · exact .here
    · exact .key member within
    · exact .value member within

theorem hasMapping_tagged_iff (tag : TagText) (datum : Datum) :
    HasMapping found (.tagged tag datum) ↔ HasMapping found datum := by
  constructor
  · rintro (_ | _ | _ | _ | ⟨_, within⟩)
    exact within
  · exact .tagged tag

theorem keyText?_eq_none_iff {key : Datum} : key.keyText? = none ↔ key.isCollection = true := by
  induction key using parts_induction with
  | scalar value => simp [keyText?, isCollection]
  | sequence items => simp [keyText?, isCollection]
  | mapping entries => simp [keyText?, isCollection]
  | tagged tag datum ih => exact ih

/-- Nothing that has a text holds a mapping. -/
theorem not_hasMapping_of_keyText? {key : Datum} {name : String}
    (given : key.keyText? = some name) : ¬ HasMapping found key := by
  induction key using parts_induction with
  | scalar value => exact not_hasMapping_scalar value
  | sequence items => cases given
  | mapping entries => cases given
  | tagged tag datum ih =>
      rw [hasMapping_tagged_iff]
      exact ih given

end Mappings

section Converted

theorem values?_eq_some_iff {items : List Datum} {values : List Value} :
    values? items = some values ↔
      List.Forall₂ (fun item value => item.value? = some value) items values := by
  induction items generalizing values with
  | nil => simp [values?, eq_comm]
  | cons item rest ih =>
      rw [values?, List.forall₂_cons_left_iff]
      cases here : item.value? with
      | none => simp
      | some first =>
          simp only [Option.map_eq_some_iff, ih, Option.some.injEq]
          constructor
          · rintro ⟨others, later, rfl⟩
            exact ⟨first, others, rfl, later, rfl⟩
          · rintro ⟨_, others, rfl, later, rfl⟩
            exact ⟨others, later, rfl⟩

theorem values?_eq_none_iff {items : List Datum} :
    values? items = none ↔ ∃ item ∈ items, item.value? = none := by
  induction items with
  | nil => simp [values?]
  | cons item rest ih => cases here : item.value? <;> simp [values?, here, ih]

/-- An entry under the text of its key, its datum as a value. -/
def Written (entry : Datum × Datum) (field : String × Value) : Prop :=
  entry.1.keyText? = some field.1 ∧ entry.2.value? = some field.2

theorem entriesInto?_eq_some_iff {entries : List (Datum × Datum)} {done fields : Entries Value} :
    entriesInto? done entries = some fields ↔
      ∃ written, List.Forall₂ Written entries written ∧ fields = Entries.putAll done written := by
  induction entries generalizing done with
  | nil => simp [entriesInto?, eq_comm]
  | cons entry rest ih =>
      obtain ⟨key, datum⟩ := entry
      rw [entriesInto?]
      constructor
      · intro given
        split at given
        · next name value text found =>
            obtain ⟨written, each, rfl⟩ := ih.mp given
            exact ⟨(name, value) :: written, .cons ⟨text, found⟩ each, rfl⟩
        · cases given
      · rintro ⟨written, each, rfl⟩
        obtain ⟨⟨name, value⟩, others, ⟨text, found⟩, later, rfl⟩ :=
          List.forall₂_cons_left_iff.mp each
        have text : key.keyText? = some name := text
        have found : datum.value? = some value := found
        rw [text, found]
        exact ih.mpr ⟨others, later, rfl⟩

theorem entriesInto?_eq_none_iff {entries : List (Datum × Datum)} {done : Entries Value} :
    entriesInto? done entries = none ↔
      ∃ entry ∈ entries, entry.1.keyText? = none ∨ entry.2.value? = none := by
  induction entries generalizing done with
  | nil => simp [entriesInto?]
  | cons entry rest ih =>
      obtain ⟨key, datum⟩ := entry
      cases text : key.keyText? <;> cases found : datum.value? <;>
        simp [entriesInto?, text, found, ih]

/-- Data are no plain data exactly when a mapping in them has a list or a mapping as a key. -/
theorem value?_eq_none_iff (datum : Datum) :
    datum.value? = none ↔
      ∃ found, HasMapping found datum ∧ ∃ entry ∈ found, entry.1.isCollection = true := by
  induction datum using parts_induction with
  | scalar value => simp [value?, not_hasMapping_scalar]
  | sequence items ih =>
      rw [value?, Option.map_eq_none_iff, values?_eq_none_iff]
      simp only [hasMapping_sequence_iff]
      constructor
      · rintro ⟨item, member, nothing⟩
        obtain ⟨found, within, composite⟩ := (ih item member).mp nothing
        exact ⟨found, ⟨item, member, within⟩, composite⟩
      · rintro ⟨found, ⟨item, member, within⟩, composite⟩
        exact ⟨item, member, (ih item member).mpr ⟨found, within, composite⟩⟩
  | mapping entries ih =>
      rw [value?, Option.map_eq_none_iff, entriesInto?_eq_none_iff]
      simp only [hasMapping_mapping_iff]
      constructor
      · rintro ⟨entry, member, textless | nothing⟩
        · exact ⟨entries, Or.inl rfl, entry, member, keyText?_eq_none_iff.mp textless⟩
        · obtain ⟨found, within, composite⟩ := (ih entry member).2.mp nothing
          exact ⟨found, Or.inr ⟨entry, member, Or.inr within⟩, composite⟩
      · rintro ⟨found, rfl | ⟨entry, member, within | within⟩, composite⟩
        · obtain ⟨entry, member, collection⟩ := composite
          exact ⟨entry, member, Or.inl (keyText?_eq_none_iff.mpr collection)⟩
        · refine ⟨entry, member, Or.inl ?_⟩
          rw [Option.eq_none_iff_forall_ne_some]
          exact fun name given => not_hasMapping_of_keyText? given within
        · exact ⟨entry, member, Or.inr ((ih entry member).2.mpr ⟨found, within, composite⟩)⟩
  | tagged tag datum ih =>
      simp only [hasMapping_tagged_iff]
      exact ih

end Converted

section Kept

theorem itemsBecome_iff {items : List Datum} {values : List Value} :
    ItemsBecome items values ↔ List.Forall₂ Becomes items values := by
  induction items generalizing values with
  | nil => cases values <;> simp [ItemsBecome]
  | cons item rest ih => cases values <;> simp [ItemsBecome, ih]

theorem entriesBecome_iff {entries : List (Datum × Datum)} {fields : List (String × Value)} :
    EntriesBecome entries fields ↔
      List.Forall₂ (fun entry field => entry.1.keyText? = some field.1 ∧
        entry.2.Becomes field.2) entries fields := by
  induction entries generalizing fields with
  | nil => cases fields <;> simp [EntriesBecome]
  | cons entry rest ih => cases fields <;> simp [EntriesBecome, ih]

/-- In no mapping of the datum do two keys have one text. -/
def TextsApart (datum : Datum) : Prop :=
  ∀ found, HasMapping found datum → (found.map fun entry => entry.1.keyText?).Nodup

theorem textsApart_sequence_iff {items : List Datum} :
    TextsApart (.sequence items) ↔ ∀ item ∈ items, item.TextsApart := by
  simp only [TextsApart, hasMapping_sequence_iff]
  constructor
  · exact fun apart item member found within => apart found ⟨item, member, within⟩
  · rintro apart found ⟨item, member, within⟩
    exact apart item member found within

theorem textsApart_mapping_iff {entries : List (Datum × Datum)}
    (texts : ∀ entry ∈ entries, ∃ name, entry.1.keyText? = some name) :
    TextsApart (.mapping entries) ↔ (entries.map fun entry => entry.1.keyText?).Nodup ∧
      ∀ entry ∈ entries, entry.2.TextsApart := by
  simp only [TextsApart, hasMapping_mapping_iff]
  constructor
  · intro apart
    exact ⟨apart entries (Or.inl rfl), fun entry member found within =>
      apart found (Or.inr ⟨entry, member, Or.inr within⟩)⟩
  · rintro ⟨here, below⟩ found (rfl | ⟨entry, member, within | within⟩)
    · exact here
    · obtain ⟨name, given⟩ := texts entry member
      exact absurd within (not_hasMapping_of_keyText? given)
    · exact below entry member found within

/-- A relation that comes to a property of the left side, wherever another one holds. -/
theorem forall₂_iff_forall_mem {α β : Type} {given kept : α → β → Prop} {holds : α → Prop}
    {first : List α} {second : List β} (all : List.Forall₂ given first second)
    (each : ∀ one ∈ first, ∀ other, given one other → (kept one other ↔ holds one)) :
    List.Forall₂ kept first second ↔ ∀ one ∈ first, holds one := by
  induction all with
  | nil => simp
  | cons here _ ih =>
      rw [List.forall_mem_cons] at each
      rw [List.forall₂_cons, List.forall_mem_cons, each.1 _ here, ih each.2]

/-- The texts of the keys are the names that the entries get. -/
theorem texts_eq_keys {entries : List (Datum × Datum)} {fields : List (String × Value)}
    (texts : List.Forall₂ (fun entry field => entry.1.keyText? = some field.1) entries fields) :
    entries.map (fun entry => entry.1.keyText?) = (Entries.keys fields).map some := by
  induction texts with
  | nil => rfl
  | cons here _ ih => rw [List.map_cons, Entries.keys_cons, List.map_cons, here, ih]

theorem nodup_texts_iff {entries : List (Datum × Datum)} {fields : List (String × Value)}
    (texts : List.Forall₂ (fun entry field => entry.1.keyText? = some field.1) entries fields) :
    (entries.map fun entry => entry.1.keyText?).Nodup ↔ (Entries.keys fields).Nodup := by
  rw [texts_eq_keys texts, List.nodup_map_iff (Option.some_injective String)]

theorem exists_keyText_of_written {entries : List (Datum × Datum)} {fields : List (String × Value)}
    (each : List.Forall₂ Written entries fields) :
    ∀ entry ∈ entries, ∃ name, entry.1.keyText? = some name := by
  intro entry member
  have listed : entry.1.keyText? ∈ entries.map fun entry => entry.1.keyText? :=
    List.mem_map.mpr ⟨entry, member, rfl⟩
  rw [texts_eq_keys (each.imp fun _ _ both => both.1)] at listed
  obtain ⟨name, -, text⟩ := List.mem_map.mp listed
  exact ⟨name, text.symm⟩

/-- All entries are there, each in its place, only if writing them one after another has replaced
none. -/
theorem entriesBecome_ofList_iff {entries : List (Datum × Datum)} {fields : List (String × Value)}
    (each : List.Forall₂ Written entries fields) :
    EntriesBecome entries (Entries.ofList fields) ↔
      (entries.map fun entry => entry.1.keyText?).Nodup ∧ EntriesBecome entries fields := by
  rw [nodup_texts_iff (each.imp fun _ _ both => both.1), ← Entries.ofList_eq_self_iff]
  constructor
  · intro kept
    have texts := (entriesBecome_iff.mp kept).imp fun _ _ both => both.1
    have distinct := (nodup_texts_iff texts).mpr (Entries.nodup_keys_ofList fields)
    rw [nodup_texts_iff (each.imp fun _ _ both => both.1)] at distinct
    have same := Entries.ofList_of_nodup distinct
    exact ⟨same, same ▸ kept⟩
  · rintro ⟨same, kept⟩
    rw [same]
    exact kept

/-- Nothing is lost or moved if and only if no two keys of a mapping have one text. -/
theorem becomes_iff {datum : Datum} {value : Value} (given : datum.value? = some value) :
    datum.Becomes value ↔ datum.TextsApart := by
  induction datum using parts_induction generalizing value with
  | scalar written =>
      cases given
      exact iff_of_true rfl fun found within => absurd within (not_hasMapping_scalar written)
  | sequence items ih =>
      obtain ⟨values, each, rfl⟩ := Option.map_eq_some_iff.mp given
      rw [Becomes, itemsBecome_iff, textsApart_sequence_iff]
      exact forall₂_iff_forall_mem (values?_eq_some_iff.mp each) fun item member value =>
        ih item member
  | mapping entries ih =>
      obtain ⟨fields, whole, rfl⟩ := Option.map_eq_some_iff.mp given
      obtain ⟨written, each, rfl⟩ := entriesInto?_eq_some_iff.mp whole
      have below : EntriesBecome entries written ↔ ∀ entry ∈ entries, entry.2.TextsApart := by
        rw [entriesBecome_iff]
        refine forall₂_iff_forall_mem each fun entry member field both => ?_
        rw [and_iff_right both.1]
        exact (ih entry member).2 both.2
      rw [textsApart_mapping_iff (exists_keyText_of_written each), ← below]
      exact entriesBecome_ofList_iff each
  | tagged tag datum ih =>
      have apart : TextsApart (.tagged tag datum) ↔ datum.TextsApart := by
        simp only [TextsApart, hasMapping_tagged_iff]
      rw [Becomes, apart]
      exact ih given

/-- How many items or entries a collection has. -/
def size : Datum → Nat
  | .scalar _ => 0
  | .sequence items => items.length
  | .mapping entries => entries.length
  | .tagged _ datum => datum.size
termination_by structural datum => datum

def sizeOfValue : Value → Nat
  | .scalar _ => 0
  | .list items => items.length
  | .dict entries => entries.length

theorem Becomes.size_eq {datum : Datum} {value : Value} (kept : datum.Becomes value) :
    datum.size = sizeOfValue value := by
  induction datum using parts_induction with
  | scalar written =>
      cases kept
      rfl
  | sequence items =>
      cases value with
      | list values => exact (itemsBecome_iff.mp kept).length_eq
      | scalar value => cases kept
      | dict fields => cases kept
  | mapping entries =>
      cases value with
      | dict fields => exact (entriesBecome_iff.mp kept).length_eq
      | scalar value => cases kept
      | list values => cases kept
  | tagged tag datum ih => exact ih kept

/-- Keys that are texts without tags, no two the same. -/
structure TextKeys (entries : List (Datum × Datum)) : Prop where
  texts : ∀ entry ∈ entries, ∃ text, entry.1 = .scalar (.string text)
  apart : entries.Pairwise fun one other => one.1.same other.1 = false

theorem TextKeys.nodup {entries : List (Datum × Datum)} (keys : TextKeys entries) :
    (entries.map fun entry => entry.1.keyText?).Nodup := by
  rw [List.nodup_iff_pairwise_ne, List.pairwise_map]
  refine keys.apart.imp_of_mem ?_
  intro one other first second different same
  obtain ⟨text, here⟩ := keys.texts one first
  obtain ⟨text', there⟩ := keys.texts other second
  rw [here, there] at different same
  cases same
  rw [Datum.same, sameScalar] at different
  · simp [Scalar.same] at different
  · exact nofun

end Kept

/-- Data are no plain data exactly when somewhere in them a mapping has a list or a mapping as a
key. Otherwise each mapping becomes a dictionary that has every entry in its place under the text of
its key, and each sequence a list of its items, if and only if no two keys of a mapping have one
text; and so it is where all keys are texts and no two of a mapping are the same. -/
theorem keeps_entries_iff (datum : Datum) :
    (datum.value? = none ↔
        ∃ found, HasMapping found datum ∧ ∃ entry ∈ found, entry.1.isCollection = true) ∧
      (∀ value, datum.value? = some value →
        value.Distinct ∧ (datum.Becomes value ↔ datum.TextsApart)) ∧
      ((∀ found, HasMapping found datum → TextKeys found) →
        ∃ value, datum.value? = some value ∧ datum.Becomes value) := by
  refine ⟨value?_eq_none_iff datum,
    fun value given => ⟨datum.distinct_value? given, becomes_iff given⟩, fun keys => ?_⟩
  have something : datum.value? ≠ none := by
    intro nothing
    obtain ⟨found, within, entry, member, collection⟩ := (value?_eq_none_iff datum).mp nothing
    obtain ⟨text, key⟩ := (keys found within).texts entry member
    rw [key] at collection
    cases collection
  obtain ⟨value, given⟩ := Option.ne_none_iff_exists'.mp something
  exact ⟨value, given, (becomes_iff given).mpr fun found within => (keys found within).nodup⟩

/-- Rates by year, the year under a tag, and one that is named by nothing. -/
def yearlyRates : Datum :=
  .mapping [(.tagged [33, 121] (.scalar (.int 2020)), .sequence [.scalar (.int 1), .scalar .null]),
    (.scalar (.string "2020.0"), .tagged [33, 121] (.mapping [])), (.scalar .null, .scalar .null)]

def namedRates : Datum :=
  .mapping [(.scalar (.string "slow"), .scalar (.int 1)), (.scalar (.string "1"), .scalar .null)]

theorem rates_keep_entries :
    yearlyRates.value? = some (.dict [("2020", .list [.int 1, .null]), ("2020.0", .dict []),
        ("null", .null)]) ∧
      yearlyRates.Becomes (.dict [("2020", .list [.int 1, .null]), ("2020.0", .dict []),
        ("null", .null)]) ∧
      (∀ found, HasMapping found namedRates → TextKeys found) ∧
      ∃ value, namedRates.value? = some value ∧ namedRates.Becomes value := by
  have given : yearlyRates.value? = some (.dict [("2020", .list [.int 1, .null]),
      ("2020.0", .dict []), ("null", .null)]) := by cbv
  have apart : yearlyRates.TextsApart := by
    intro found within
    unfold yearlyRates at within
    simp only [hasMapping_mapping_iff, hasMapping_sequence_iff, hasMapping_tagged_iff,
      not_hasMapping_scalar, List.exists_mem_cons_iff, List.not_mem_nil, false_and, exists_false,
      or_false, false_or] at within
    rcases within with rfl | rfl
    · decide +kernel
    · decide
  have keys : ∀ found, HasMapping found namedRates → TextKeys found := by
    intro found within
    unfold namedRates at within
    simp only [hasMapping_mapping_iff, not_hasMapping_scalar, List.exists_mem_cons_iff,
      List.not_mem_nil, false_and, exists_false, or_false] at within
    subst within
    exact ⟨by simp, by simp [Datum.same, sameScalar, Scalar.same]⟩
  obtain ⟨-, kept, named⟩ := keeps_entries_iff yearlyRates
  exact ⟨given, (kept _ given).2.mpr apart, keys, (keeps_entries_iff namedRates).2.2 keys⟩

/-- Of an entry under a number and one under a text written like it only the later one is left. -/
theorem not_read_keeps_entries :
    ¬ ∀ (text : String) (datum : Datum) (value : Value), read text = some datum →
      datum.value? = some value → datum.Becomes value := by
  intro always
  have counts : ((read "1: a\n\"1\": b\n").bind fun datum =>
      datum.value?.map fun value => (datum.size, sizeOfValue value)) = some (2, 1) := by
    decide +kernel
  obtain ⟨datum, found, counted⟩ := Option.bind_eq_some_iff.mp counts
  obtain ⟨value, given, sizes⟩ := Option.map_eq_some_iff.mp counted
  have same := (always _ datum value found given).size_eq
  rw [Prod.mk.injEq] at sizes
  rw [sizes.1, sizes.2] at same
  cases same

end Datum

end Yaml

end StageTemplates
