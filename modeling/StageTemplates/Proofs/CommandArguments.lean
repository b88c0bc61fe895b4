import StageTemplates.Proofs.InTurn
import StageTemplates.Proofs.ShellWords

set_option autoImplicit false

/-!
A dictionary written as the arguments of a command reaches the command: a shell takes the line apart
into the switches and the very texts of the values.
-/
namespace StageTemplates

namespace Shell

/-- A text that quoting leaves as it is, unless it is empty. -/
def Safe (text : String) : Prop := ∀ c ∈ text.toList, isSafe c = true

instance (text : String) : Decidable (Safe text) :=
  decidable_of_iff (text.toList.all isSafe = true) List.all_eq_true

theorem Safe.append {first second : String} (one : Safe first) (other : Safe second) :
    Safe (first ++ second) := by
  rw [Safe, String.toList_append, List.forall_mem_append]
  exact ⟨one, other⟩

theorem Safe.quoted {text : String} (safe : Safe text) (nonempty : text ≠ "") :
    quoted text = text := by
  have written : text.toList ≠ [] := by simpa using nonempty
  have whole : quotedChars text.toList = text.toList := by
    unfold quotedChars
    split
    · next empty => exact absurd empty written
    · rw [if_pos (List.all_eq_true.mpr safe)]
  rw [Shell.quoted, whole, String.ofList_toList]

section Numbers

theorem isSafe_of_isDigit {c : Char} (digit : c.isDigit = true) : isSafe c = true := by
  have plain : c.isAlphanum = true := by simp [Char.isAlphanum, digit]
  rw [isSafe, Text.isAlphanumeric_of_isAlphanum plain, Bool.true_or]

theorem safe_repr (number : Nat) : Safe number.repr := fun _ member =>
  isSafe_of_isDigit (isDigit_of_mem_toString member)

theorem safe_ofList {text : List Char} (safe : ∀ c ∈ text, isSafe c = true) :
    Safe (String.ofList text) := by
  rwa [Safe, String.toList_ofList]

theorem safe_zeros (count : Nat) : Safe (Layout.zeros count) := by
  refine safe_ofList fun c member => ?_
  rw [List.eq_of_mem_replicate member]
  exact isSafe_of_isDigit rfl

variable {digits : List Char} (safe : ∀ c ∈ digits, isSafe c = true)
include safe

theorem safe_positional (point : Int) : Safe (Layout.positional digits point) := by
  have part : ∀ some ⊆ digits, Safe (String.ofList some) := fun _ within =>
    safe_ofList fun c member => safe c (within member)
  unfold Layout.positional
  split
  · exact (Safe.append (by decide +kernel) (safe_zeros _)).append (safe_ofList safe)
  · split
    · exact ((safe_ofList safe).append (safe_zeros _)).append (by decide +kernel)
    · exact ((part _ (List.take_subset _ _)).append (by decide +kernel)).append
        (part _ (List.drop_subset _ _))

theorem safe_scientific (point : Int) : Safe (Layout.data.scientific digits point) := by
  have part : ∀ some ⊆ digits, Safe (String.ofList some) := fun _ within =>
    safe_ofList fun c member => safe c (within member)
  have fraction :
      Safe (if digits.length ≤ 1 then "" else "." ++ String.ofList (digits.drop 1)) := by
    split
    · decide
    · exact Safe.append (by decide +kernel) (part _ (List.drop_subset _ _))
  have sign : Safe (if point - 1 < 0 then "-" else Layout.data.plus) := by
    split <;> decide +kernel
  exact ((((part _ (List.take_subset _ _)).append fraction).append (by decide +kernel)).append
    sign).append (safe_repr _)

omit safe

/-- The text of a float has digits, signs, a point and letters. -/
theorem safe_float (x : Float) : Safe (Layout.data.text x) := by
  have numeric : ∀ number : Nat, ∀ c ∈ (toString number).toList, isSafe c = true := safe_repr
  have magnitude : ∀ number : Decimal, Safe (Layout.data.magnitude number) := by
    intro number
    unfold Layout.magnitude
    split
    · decide +kernel
    · dsimp only
      split
      · exact safe_positional (numeric _) _
      · exact safe_scientific (numeric _) _
  unfold Layout.text
  split
  · decide +kernel
  · refine Safe.append ?_ ?_
    · split <;> decide +kernel
    · split
      · decide +kernel
      · exact magnitude _

theorem float_ne_empty (x : Float) : Layout.data.text x ≠ "" := by
  have positional : ∀ digits point, Layout.positional digits point ≠ "" := by
    intro digits point
    unfold Layout.positional
    split
    · simp
    · split <;> simp
  have magnitude : ∀ number : Decimal, Layout.data.magnitude number ≠ "" := by
    intro number
    unfold Layout.magnitude
    split
    · decide
    · dsimp only
      split
      · exact positional _ _
      · simp [Layout.scientific]
  have size : (if x.isInf then Layout.data.infinity
      else Layout.data.magnitude (Decimal.ofFloat x)) ≠ "" := by
    split
    · decide
    · exact magnitude _
  unfold Layout.text
  split
  · decide
  · simp [size]

end Numbers

/-- A scalar is written as its text, in quotes if it is a string that needs them. -/
theorem quoted_text {value : Scalar} (other : ∀ text, value ≠ .string text) :
    quoted value.text = value.text := by
  cases value with
  | null => exact Safe.quoted (by decide +kernel) (by decide)
  | bool value => cases value <;> exact Safe.quoted (by decide +kernel) (by decide)
  | int value =>
      cases value with
      | ofNat number => exact (safe_repr number).quoted Nat.repr_ne_empty
      | negSucc number =>
          have minus : Safe "-" := by decide +kernel
          exact (minus.append (safe_repr (number + 1))).quoted (by simp)
  | float value => exact (safe_float value).quoted (float_ne_empty value)
  | string text => exact absurd rfl (other text)

/-- Whether the value is a list with a list or a dictionary in it. -/
def nests : Value → Bool
  | .list items => items.any fun item => !item.isScalar
  | _ => false

theorem nests_eq_true_iff {value : Value} :
    nests value = true ↔ ∃ items, value = .list items ∧ ∃ item ∈ items, item.isScalar = false := by
  cases value <;> simp [nests]

/-- What a command gets for an entry: a switch, or a switch with texts. -/
def argumentsOf (style : Style) (key : String) : Value → List String
  | .scalar (.bool true) => ["--" ++ key]
  | .scalar (.bool false) => if style.bool = .booleanOptional then ["--no-" ++ key] else []
  | .scalar value => ["--" ++ key, value.text]
  | .list items =>
      match style.list with
      | .nargs => if items.isEmpty then [] else ("--" ++ key) :: items.map Value.text
      | .append => items.flatMap fun item => ["--" ++ key, item.text]
  | .dict _ => []

theorem itemWord_scalar (key : String) (value : Scalar) :
    itemWord key (.scalar value) = .ok (quoted value.text) := by
  cases value with
  | string text => rfl
  | null => exact congrArg Except.ok (quoted_text (by simp)).symm
  | bool value => exact congrArg Except.ok (quoted_text (by simp)).symm
  | int value => exact congrArg Except.ok (quoted_text (by simp)).symm
  | float value => exact congrArg Except.ok (quoted_text (by simp)).symm

theorem itemWord_eq_error (key : String) {item : Value} (composite : item.isScalar = false) :
    itemWord key item = .error (.nestedIterable key) := by
  cases item with
  | scalar value => cases composite
  | list items => rfl
  | dict entries => rfl

theorem itemWords_of_scalars (key : String) {items : List Value}
    (scalars : ∀ item ∈ items, item.isScalar = true) :
    itemWords key items = .ok (items.map fun item => quoted item.text) := by
  induction items with
  | nil => rfl
  | cons item rest ih =>
      rw [List.forall_mem_cons] at scalars
      cases item with
      | scalar value =>
          rw [itemWords, itemWord_scalar, ih scalars.2]
          rfl
      | list items => cases scalars.1
      | dict entries => cases scalars.1

theorem itemWords_eq_error (key : String) {items : List Value}
    (nested : ∃ item ∈ items, item.isScalar = false) :
    itemWords key items = .error (.nestedIterable key) := by
  induction items with
  | nil => simp at nested
  | cons item rest ih =>
      cases here : item.isScalar with
      | false => rw [itemWords, itemWord_eq_error key here]
      | true =>
          have later : ∃ item ∈ rest, item.isScalar = false := by simpa [here] using nested
          cases item with
          | scalar value => rw [itemWords, itemWord_scalar, ih later]
          | list items => cases here
          | dict entries => cases here

/-- The words for an entry are the quoted texts of what the command gets. -/
theorem entryWords_of_not_nests (style : Style) {key : String} (safe : Safe key) {value : Value}
    (flat : nests value = false) :
    entryWords style key value = .ok ((argumentsOf style key value).map quoted) := by
  have switch : quoted ("--" ++ key) = "--" ++ key :=
    (Safe.append (by decide +kernel) safe).quoted (by simp)
  have off : quoted ("--no-" ++ key) = "--no-" ++ key :=
    (Safe.append (by decide +kernel) safe).quoted (by simp)
  cases value with
  | scalar value =>
      cases value with
      | null => simp [entryWords, argumentsOf, switch, quoted_text]
      | bool on =>
          cases on with
          | true => simp [entryWords, argumentsOf, switch]
          | false => cases given : style.bool <;> simp [entryWords, argumentsOf, given, off]
      | int number => simp [entryWords, argumentsOf, switch, quoted_text]
      | float number => simp [entryWords, argumentsOf, switch, quoted_text]
      | string text => simp [entryWords, argumentsOf, switch, Scalar.text]
  | list items =>
      have scalars : ∀ item ∈ items, item.isScalar = true := by simpa [nests] using flat
      rw [entryWords, itemWords_of_scalars key scalars, argumentsOf]
      cases items with
      | nil => cases style.list <;> rfl
      | cons item rest =>
          cases style.list <;> simp [switch, List.flatMap_map, List.map_flatMap]
  | dict entries => rfl

theorem entryWords_eq_error (style : Style) (key : String) {value : Value}
    (nested : nests value = true) :
    entryWords style key value = .error (.nestedIterable key) := by
  obtain ⟨items, rfl, composite⟩ := nests_eq_true_iff.mp nested
  rw [entryWords, itemWords_eq_error key composite]

theorem words_eq_mapM (style : Style) (entries : Entries Value) :
    words style entries =
      (entries.mapM fun entry => entryWords style entry.1 entry.2).map List.flatten := by
  induction entries with
  | nil => rfl
  | cons entry rest ih =>
      obtain ⟨key, value⟩ := entry
      rw [words, ih, List.mapM_cons]
      generalize (rest.mapM fun entry => entryWords style entry.1 entry.2) = others
      cases entryWords style key value <;> cases others <;> rfl

section Flattened

variable {style : Style} {entries : Entries Value}
  (safe : ∀ key ∈ Entries.keys entries, Safe key)
include safe

theorem words_of_flat (flat : ∀ entry ∈ entries, nests entry.2 = false) :
    words style entries =
      .ok ((entries.flatMap fun entry => argumentsOf style entry.1 entry.2).map quoted) := by
  induction entries with
  | nil => rfl
  | cons entry rest ih =>
      obtain ⟨key, value⟩ := entry
      rw [Entries.keys_cons, List.forall_mem_cons] at safe
      rw [List.forall_mem_cons] at flat
      rw [words, entryWords_of_not_nests style safe.1 flat.1, ih safe.2 flat.2, List.flatMap_cons,
        List.map_append]

/-- The first entry that cannot be written is the first with a list that nests. -/
theorem words_eq_error_iff {error : TokenError} :
    words style entries = .error error ↔
      ∃ before key items after, entries = before ++ (key, .list items) :: after ∧
        (∀ earlier ∈ before, nests earlier.2 = false) ∧
        (∃ item ∈ items, item.isScalar = false) ∧ error = .nestedIterable key := by
  have written : ∀ entry ∈ entries,
      (∃ found, entryWords style entry.1 entry.2 = .ok found) ↔ nests entry.2 = false := by
    intro entry member
    cases nested : nests entry.2 with
    | false =>
        have key := safe entry.1 (Entries.mem_keys_of_mem member)
        simp [entryWords_of_not_nests style key nested]
    | true => simp [entryWords_eq_error style entry.1 nested]
  rw [words_eq_mapM, map_eq_error_iff, mapM_eq_error_iff]
  constructor
  · rintro ⟨before, ⟨key, value⟩, after, rfl, succeed, failed⟩
    have earlier : ∀ entry ∈ before, nests entry.2 = false := fun entry member =>
      (written entry (List.mem_append_left _ member)).mp (succeed entry member)
    cases nested : nests value with
    | false =>
        obtain ⟨found, same⟩ := (written (key, value) (by simp)).mpr nested
        cases same.symm.trans failed
    | true =>
        obtain ⟨items, rfl, composite⟩ := nests_eq_true_iff.mp nested
        have cause := (entryWords_eq_error style key nested).symm.trans failed
        exact ⟨before, key, items, after, rfl, earlier, composite, (Except.error.inj cause).symm⟩
  · rintro ⟨before, key, items, after, rfl, earlier, composite, rfl⟩
    refine ⟨before, (key, .list items), after, rfl, fun entry member => ?_, ?_⟩
    · exact (written entry (List.mem_append_left _ member)).mpr (earlier entry member)
    · exact entryWords_eq_error style key (nests_eq_true_iff.mpr ⟨items, rfl, composite⟩)

end Flattened

end Shell

namespace Value

/-- A dictionary cannot be written exactly when a list in it, flattened, has a list or a dictionary
among its items; the error names the first such list. Any other dictionary is written so that a
shell takes the line apart into what the entries stand for, in their order, each text as it is. -/
theorem render_reaches_command (style : Style) (entries : List (String × Value))
    (safe : ∀ key ∈ Entries.keys (flatten entries), Shell.Safe key) :
    (∀ error, (dict entries).render style = .error error ↔
      ∃ before key items after, flatten entries = before ++ (key, .list items) :: after ∧
        (∀ earlier ∈ before, Shell.nests earlier.2 = false) ∧
        (∃ item ∈ items, item.isScalar = false) ∧ error = .nestedIterable key) ∧
    ((∀ entry ∈ flatten entries, Shell.nests entry.2 = false) →
      ∃ line, (dict entries).render style = .ok line ∧
        Shell.split? line = some
          ((flatten entries).flatMap fun entry => Shell.argumentsOf style entry.1 entry.2)) := by
  constructor
  · intro error
    rw [← Shell.words_eq_error_iff safe, render, Shell.arguments]
    cases Shell.words style (flatten entries) <;> simp
  · intro flat
    refine ⟨_, ?_, Shell.split?_line_map_quoted _⟩
    rw [render, Shell.arguments, Shell.words_of_flat safe flat]

/-- Settings of a training run, among them texts that a shell would take apart or expand. -/
def runSettings : List (String × Value) :=
  [("title", .string "it's a $HOME\n"), ("tag", .string ""), ("quiet", .bool false),
    ("opt", .dict [("layers", .list [.int 8, .string "a b"]), ("none", .list [])])]

theorem runSettings_reach_command :
    (∀ key ∈ Entries.keys (flatten runSettings), Shell.Safe key) ∧
    (∀ entry ∈ flatten runSettings, Shell.nests entry.2 = false) ∧
    ∃ line, (dict runSettings).render ⟨.booleanOptional, .append⟩ = .ok line ∧
      Shell.split? line = some ["--title", "it's a $HOME\n", "--tag", "", "--no-quiet",
        "--opt.layers", "8", "--opt.layers", "a b"] := by
  have safe : ∀ key ∈ Entries.keys (flatten runSettings), Shell.Safe key := by decide +kernel
  have flat : ∀ entry ∈ flatten runSettings, Shell.nests entry.2 = false := by decide +kernel
  exact ⟨safe, flat,
    (render_reaches_command ⟨.booleanOptional, .append⟩ runSettings safe).2 flat⟩

end Value

end StageTemplates
