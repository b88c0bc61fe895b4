import Mathlib.Data.List.DropRight
import StageTemplates.Context.Evaluate

set_option autoImplicit false

/-!
Dotted paths, the segments that come out of them as they went in, and what a path selects.
-/
namespace StageTemplates

namespace Text

theorem dropSpacesEnd_eq_rdropWhile (text : List Char) :
    dropSpacesEnd text = text.rdropWhile isSpace := rfl

theorem dropSpaces_dropSpaces (text : List Char) :
    dropSpaces (dropSpaces text) = dropSpaces text :=
  List.dropWhile_idempotent isSpace text

theorem dropSpacesEnd_dropSpacesEnd (text : List Char) :
    dropSpacesEnd (dropSpacesEnd text) = dropSpacesEnd text :=
  List.rdropWhile_idempotent isSpace text

/-- White space at the end is no part of a text without white space at its start. -/
theorem dropSpaces_dropSpacesEnd {text : List Char} (start : dropSpaces text = text) :
    dropSpaces (dropSpacesEnd text) = dropSpacesEnd text := by
  obtain ⟨spaces, split⟩ := List.rdropWhile_prefix isSpace text
  rw [← dropSpacesEnd_eq_rdropWhile] at split
  cases left : dropSpacesEnd text with
  | nil => rfl
  | cons c rest =>
      rw [left, List.cons_append] at split
      rw [← split, dropSpaces, List.dropWhile_eq_self_iff] at start
      have solid : ¬ isSpace c = true := start (by simp)
      exact List.dropWhile_cons_of_neg solid

@[simp] theorem trim_trim (text : String) : trim (trim text) = trim text := by
  have start := dropSpaces_dropSpacesEnd (dropSpaces_dropSpaces text.toList)
  unfold trim
  rw [String.toList_ofList, start, dropSpacesEnd_dropSpacesEnd]

theorem trim_eq_self {text : String} (solid : ∀ c ∈ text.toList, isSpace c = false) :
    trim text = text := by
  have start : dropSpaces text.toList = text.toList := by
    refine List.dropWhile_eq_self_iff.mpr fun nonempty => ?_
    rw [solid _ (List.getElem_mem nonempty)]
    exact Bool.false_ne_true
  have finish : dropSpacesEnd text.toList = text.toList := by
    refine List.rdropWhile_eq_self_iff.mpr fun nonempty => ?_
    rw [solid _ (List.getLast_mem nonempty)]
    exact Bool.false_ne_true
  rw [trim, start, finish, String.ofList_toList]

theorem mem_trim {text : String} {c : Char} (member : c ∈ (trim text).toList) :
    c ∈ text.toList := by
  rw [trim, String.toList_ofList] at member
  have inside := (List.rdropWhile_prefix isSpace (dropSpaces text.toList)).subset member
  exact (List.dropWhile_suffix isSpace).subset inside

end Text

/-- A segment that is one segment of any dotted path it is written into. -/
def PlainSegment (segment : String) : Prop :=
  '.' ∉ segment.toList ∧ Text.trim segment = segment

instance : DecidablePred PlainSegment := fun segment =>
  inferInstanceAs (Decidable ('.' ∉ segment.toList ∧ Text.trim segment = segment))

theorem not_mem_of_mem_splitOn {separator : Char} {text piece : List Char}
    (member : piece ∈ text.splitOn separator) : separator ∉ piece := by
  induction text generalizing piece with
  | nil =>
      rw [List.splitOn_nil, List.mem_singleton] at member
      simp [member]
  | cons c rest ih =>
      rw [List.splitOn_cons_eq_if_modifyHead] at member
      split at member
      · rcases List.mem_cons.mp member with rfl | later
        · exact List.not_mem_nil
        · exact ih later
      · next other =>
          cases pieces : rest.splitOn separator with
          | nil => exact absurd pieces (List.splitOn_ne_nil separator rest)
          | cons first others =>
              rw [pieces] at member ih
              rw [List.modifyHead_cons, List.mem_cons] at member
              rcases member with rfl | later
              · have apart : separator ≠ c := fun same => other (by simp [same])
                simpa [apart] using ih List.mem_cons_self
              · exact ih (List.mem_cons_of_mem _ later)

theorem plainSegment_of_mem_pathSegments {key segment : String}
    (member : segment ∈ pathSegments key) : PlainSegment segment := by
  obtain ⟨piece, split, rfl⟩ := List.mem_map.mp member
  refine ⟨fun dot => ?_, Text.trim_trim _⟩
  have inside := Text.mem_trim dot
  rw [String.toList_ofList] at inside
  exact not_mem_of_mem_splitOn split inside

/-- Texts come out of what they are joined to, if none has the separator in it. -/
theorem splitOn_intercalate (glue : String) (separator : Char) (single : glue.toList = [separator])
    {texts : List String} (nonempty : texts ≠ [])
    (apart : ∀ text ∈ texts, separator ∉ text.toList) :
    ((glue.intercalate texts).toList.splitOn separator).map String.ofList = texts := by
  have pieces : (glue.intercalate texts).toList.splitOn separator = texts.map String.toList := by
    rw [String.toList_intercalate, single]
    exact List.splitOn_intercalate separator (by rwa [List.forall_mem_map])
      (by simpa using nonempty)
  rw [pieces, List.map_map]
  refine (List.map_congr_left fun text _ => ?_).trans (List.map_id texts)
  rw [Function.comp_apply, String.ofList_toList, id]

/-- Plain segments come out of the path that is made of them. -/
theorem pathSegments_intercalate {segments : List String} (nonempty : segments ≠ [])
    (plain : ∀ segment ∈ segments, PlainSegment segment) :
    pathSegments (".".intercalate segments) = segments := by
  have pieces := splitOn_intercalate "." '.' rfl nonempty fun segment member =>
    (plain segment member).1
  have trimmed : pathSegments (".".intercalate segments) =
      (((".".intercalate segments).toList.splitOn '.').map String.ofList).map Text.trim := by
    rw [List.map_map]
    rfl
  rw [trimmed, pieces]
  refine (List.map_congr_left fun segment member => ?_).trans (List.map_id segments)
  rw [(plain segment member).2, id]

section ListIndices

theorem isDigit_of_mem_toString {number : Nat} {c : Char}
    (member : c ∈ (toString number).toList) : c.isDigit = true := by
  rw [Nat.toString_eq_ofList_toDigits, String.toList_ofList] at member
  exact Nat.isDigit_of_mem_toDigits (Nat.succ_pos 9) (Nat.le_refl 10) member

theorem isSpace_eq_false_of_isDigit {c : Char} (digit : c.isDigit = true) :
    Text.isSpace c = false := by
  have bounds : 48 ≤ c.toNat ∧ c.toNat ≤ 57 := Char.isDigit_iff_toNat.mp digit
  simp only [Text.isSpace, Bool.or_eq_false_iff, Bool.and_eq_false_iff, decide_eq_false_iff_not]
  omega

/-- The number of a list item is a plain segment. -/
theorem plainSegment_toString (number : Nat) : PlainSegment (toString number) := by
  constructor
  · intro member
    exact absurd (isDigit_of_mem_toString member) (by decide)
  · refine Text.trim_eq_self fun c member => ?_
    exact isSpace_eq_false_of_isDigit (isDigit_of_mem_toString member)

theorem listIndex?_lt {segment : String} {index : Nat} (found : listIndex? segment = some index) :
    index < Nat.pow 2 64 := by
  unfold listIndex? at found
  extract_lets digits number at found
  split at found
  · cases found
  · split at found
    · next small => exact Option.some.inj found ▸ small
    · cases found

/-- A number addresses the item that it counts to. -/
theorem listIndex?_toString {index : Nat} (small : index < Nat.pow 2 64) :
    listIndex? (toString index) = some index := by
  have digits : (toString index).toList = Nat.toDigits 10 index := by
    rw [Nat.toString_eq_ofList_toDigits, String.toList_ofList]
  have numeric : (Nat.toDigits 10 index).all Char.isDigit = true :=
    List.all_eq_true.mpr fun c =>
      Nat.isDigit_of_mem_toDigits (Nat.succ_pos 9) (Nat.le_refl 10)
  have value : (Nat.toDigits 10 index).foldl (fun number c => number * 10 + (c.toNat - 48)) 0 =
      index := by
    have counted := Nat.ofDigitChars_ten_toDigits (n := index)
    rw [Nat.ofDigitChars_eq_foldl] at counted
    simp only [Nat.mul_comm 10] at counted
    exact counted
  have written : (Nat.toDigits 10 index).isEmpty = false := by simp
  unfold listIndex?
  rw [digits]
  split
  · next rest signed =>
      rw [signed] at numeric
      exact absurd (List.all_eq_true.mp numeric '+' List.mem_cons_self) (by decide)
  · dsimp only
    rw [written, numeric, value]
    exact if_pos small

end ListIndices

theorem Scope.find?_eq_some_iff {data : Entries Node} {key : String} {read : Read} :
    find? data key = some read ↔
      ∃ rest first, pathSegments key = read.name :: rest ∧
        Entries.value? read.name data = some first ∧ first.follow? rest = some read.node := by
  unfold find?
  constructor
  · intro found
    split at found
    · cases found
    · next name rest split =>
        split at found
        · cases found
        · next first there =>
            obtain ⟨node, followed, rfl⟩ := Option.map_eq_some_iff.mp found
            exact ⟨rest, first, split, there, followed⟩
  · rintro ⟨rest, first, split, there, followed⟩
    rw [split]
    dsimp only
    rw [there]
    dsimp only
    rw [followed, Option.map_some]

theorem Context.select_eq_ok_iff {context : Context} {key : String} {node : Node} :
    (context.select key).1 = .ok node ↔
      ∃ read, Scope.find? context.data key = some read ∧ read.node = node := by
  change (Scope.select context.data key).outcome = .ok node ↔ _
  unfold Scope.select
  cases Scope.find? context.data key with
  | none => simp [Reading.fail]
  | some read => simp

end StageTemplates
