import Mathlib.Data.List.Nodup
import StageTemplates.Context.Merge
import StageTemplates.Proofs.DistinctNames
import StageTemplates.Proofs.MergedEntries

set_option autoImplicit false

/-!
What merging sees of variables: which ways through dictionaries lead to a dictionary, and which to
something that does not merge. Without overwriting, a merge is the union of two such outlines, and
it fails if they are at odds anywhere.
-/
namespace StageTemplates

def Context.root (context : Context) : Node := .dict context.data context.origin

/-- The origin without the item of `vars` that a local node is from. -/
def Origin.anonymous (origin : Origin) : Origin :=
  if origin.isLocal then { origin with source := none } else origin

namespace Node

mutual

/-- The node without the items of `vars` that local parts of it are from. -/
def anonymous : Node → Node
  | scalar value origin => scalar value origin.anonymous
  | list items origin => list (anonymousItems items) origin.anonymous
  | dict entries origin => dict (anonymousEntries entries) origin.anonymous
termination_by structural node => node

def anonymousItems : List Node → List Node
  | [] => []
  | item :: rest => item.anonymous :: anonymousItems rest
termination_by structural items => items

def anonymousEntries : List (String × Node) → List (String × Node)
  | [] => []
  | (key, node) :: rest => (key, node.anonymous) :: anonymousEntries rest
termination_by structural entries => entries

end

end Node

/-- What a way through dictionaries leads to. -/
inductive Mark where
  | dict
  | whole (node : Node)

def Node.mark : Node → Mark
  | .dict _ _ => .dict
  | node => .whole node.anonymous

abbrev Outline := List String → Option Mark

/-- What stands at the ways through dictionaries from a node. -/
def Node.outline (node : Node) : Outline
  | [] => some node.mark
  | key :: way =>
      match node with
      | .dict entries _ => (Entries.value? key entries).bind fun child => child.outline way
      | _ => none

namespace Outline

/-- Where both have something, both have a dictionary. -/
def Fits (first second : Outline) : Prop :=
  ∀ way mark other, first way = some mark → second way = some other → mark = .dict ∧ other = .dict

def union (first second : Outline) : Outline := fun way => (first way).or (second way)

open Classical in
/-- The union of outlines that fit. -/
noncomputable def add (first second : Outline) : Option Outline :=
  if first.Fits second then some (first.union second) else none

variable {first second third : Outline}

theorem Fits.symm (fits : first.Fits second) : second.Fits first := by
  intro way mark other here there
  exact (fits way other mark there here).symm

theorem union_comm (fits : first.Fits second) : first.union second = second.union first := by
  funext way
  unfold union
  cases here : first way with
  | none => rw [Option.none_or, Option.or_none]
  | some mark =>
      cases there : second way with
      | none => rfl
      | some other =>
          obtain ⟨rfl, rfl⟩ := fits way mark other here there
          rfl

theorem union_assoc (first second third : Outline) :
    (first.union second).union third = first.union (second.union third) := by
  funext way
  exact Option.or_assoc

/-- To be at odds with a union is to be at odds with one of its parts. -/
theorem fits_union (fits : first.Fits second) :
    (first.union second).Fits third ↔ first.Fits third ∧ second.Fits third := by
  constructor
  · intro both
    constructor
    · intro way mark other here there
      exact both way mark other (by rw [union, here]; rfl) there
    · intro way mark other here there
      cases earlier : first way with
      | none => exact both way mark other (by rw [union, earlier, here]; rfl) there
      | some kept =>
          obtain ⟨-, rfl⟩ := fits way kept mark earlier here
          exact ⟨rfl, (both way kept other (by rw [union, earlier]; rfl) there).2⟩
  · rintro ⟨one, two⟩ way mark other here there
    unfold union at here
    cases earlier : first way with
    | none =>
        rw [earlier, Option.none_or] at here
        exact two way mark other here there
    | some kept =>
        rw [earlier, Option.some_or] at here
        exact one way mark other (earlier.trans here) there

theorem add_of_fits (fits : first.Fits second) : first.add second = some (first.union second) :=
  if_pos fits

theorem add_of_not_fits (odds : ¬ first.Fits second) : first.add second = none := if_neg odds

open Classical in
theorem add_add (first second third : Outline) :
    (first.add second).bind (·.add third) =
      if first.Fits second ∧ first.Fits third ∧ second.Fits third then
        some ((first.union second).union third) else none := by
  by_cases fits : first.Fits second
  · rw [add_of_fits fits, Option.bind_some, add]
    exact if_congr ((fits_union fits).trans (by rw [and_iff_right fits])) rfl rfl
  · rw [add_of_not_fits fits, Option.bind_none, if_neg (fun all => fits all.1)]

open Classical in
/-- The union of two that fit is added like one after the other. -/
theorem add_union (fits : second.Fits third) :
    first.add (second.union third) = (first.add second).bind (·.add third) := by
  rw [add_add, add, union_assoc]
  have parts : first.Fits (second.union third) ↔
      first.Fits second ∧ first.Fits third ∧ second.Fits third := by
    constructor
    · intro whole
      obtain ⟨one, two⟩ := (fits_union fits).mp whole.symm
      exact ⟨one.symm, two.symm, fits⟩
    · rintro ⟨one, two, -⟩
      exact ((fits_union fits).mpr ⟨one.symm, two.symm⟩).symm
  exact if_congr parts rfl rfl

theorem add_right_comm (first second third : Outline) :
    (first.add second).bind (·.add third) = (first.add third).bind (·.add second) := by
  by_cases fits : second.Fits third
  · rw [← add_union fits, ← add_union fits.symm, union_comm fits]
  · rw [add_add, add_add, if_neg (fun all => fits all.2.2), if_neg (fun all => fits all.2.2.symm)]

def ofEntries (entries : Entries Node) : Outline
  | [] => some .dict
  | key :: way => (Entries.value? key entries).bind fun child => child.outline way

/-- What stands under one name. -/
def under (key : String) (outline : Outline) : Outline
  | [] => some .dict
  | name :: way => if name = key then outline way else none

theorem under_self (key : String) (outline : Outline) (way : List String) :
    under key outline (key :: way) = outline way := if_pos rfl

theorem under_of_ne {key name : String} (different : name ≠ key) (outline : Outline)
    (way : List String) : under key outline (name :: way) = none := if_neg different

/-- Outlines of dictionaries fit if they do so under every name. -/
theorem fits_of_names {first second : Outline} (root : first [] = some .dict)
    (other : second [] = some .dict)
    (each : ∀ name way mark other, first (name :: way) = some mark →
      second (name :: way) = some other → mark = .dict ∧ other = .dict) :
    first.Fits second := by
  intro way mark mark' here there
  cases way with
  | nil =>
      rw [root] at here
      rw [other] at there
      cases here
      cases there
      exact ⟨rfl, rfl⟩
  | cons name way => exact each name way mark mark' here there

theorem under_fits {key : String} {entries : Entries Node} (absent : key ∉ Entries.keys entries)
    (outline : Outline) : (under key outline).Fits (ofEntries entries) := by
  refine fits_of_names rfl rfl ?_
  intro name way mark other here there
  by_cases same : name = key
  · rw [ofEntries, same, (Entries.value?_eq_none_iff key entries).mpr absent] at there
    cases there
  · rw [under_of_ne same] at here
    cases here

theorem ofEntries_cons {key : String} {rest : Entries Node} (absent : key ∉ Entries.keys rest)
    (node : Node) :
    ofEntries ((key, node) :: rest) = (under key node.outline).union (ofEntries rest) := by
  funext way
  cases way with
  | nil => rfl
  | cons name way =>
      rw [union, ofEntries, ofEntries, under]
      by_cases same : name = key
      · rw [same, Entries.value?_cons_self, (Entries.value?_eq_none_iff key rest).mpr absent,
          if_pos rfl, Option.bind_none, Option.or_none]
        rfl
      · rw [Entries.value?_cons_of_ne (Ne.symm same), if_neg same, Option.none_or]

theorem add_nothing (into : Entries Node) :
    (ofEntries into).add (ofEntries []) = some (ofEntries into) := by
  have fits : (ofEntries into).Fits (ofEntries []) := by
    refine fits_of_names rfl rfl ?_
    intro name way mark other here there
    cases there
  rw [add_of_fits fits]
  refine congrArg some ?_
  funext way
  cases way with
  | nil => rfl
  | cons name way => exact Option.or_none

/-- A name that stands for nothing has room for anything. -/
theorem add_under_of_none {key : String} {into : Entries Node}
    (absent : Entries.value? key into = none) (node : Node) :
    (ofEntries into).add (under key node.outline) =
      some (ofEntries (Entries.put key node into)) := by
  have fits := (under_fits ((Entries.value?_eq_none_iff key into).mp absent) node.outline).symm
  rw [add_of_fits fits]
  congr 1
  funext way
  cases way with
  | nil => rfl
  | cons name way =>
      rw [union, ofEntries, ofEntries, under, Entries.value?_put]
      by_cases same : name = key
      · rw [same, absent, if_pos rfl, if_pos rfl]
        rfl
      · rw [if_neg same, if_neg same, Option.or_none]

/-- A name that stands for something takes what fits with that. -/
theorem add_under_of_some {key : String} {into : Entries Node} {present : Node}
    (found : Entries.value? key into = some present) (outline : Outline) :
    ((ofEntries into).Fits (under key outline) ↔ present.outline.Fits outline) ∧
      ∀ node : Node, node.outline = present.outline.union outline →
        (ofEntries into).union (under key outline) = ofEntries (Entries.put key node into) := by
  constructor
  · constructor
    · intro fits way mark other here there
      refine fits (key :: way) mark other ?_ ?_
      · rw [ofEntries, found]
        exact here
      · rw [under_self]
        exact there
    · intro fits
      refine fits_of_names rfl rfl ?_
      intro name way mark other here there
      by_cases same : name = key
      · rw [same, under_self] at there
        rw [ofEntries, same, found] at here
        exact fits way mark other here there
      · rw [under_of_ne same] at there
        cases there
  · intro node merged
    funext way
    cases way with
    | nil => rfl
    | cons name way =>
        rw [union, ofEntries, ofEntries, under, Entries.value?_put]
        by_cases same : name = key
        · rw [same, found, if_pos rfl, if_pos rfl, Option.bind_some, Option.bind_some, merged]
          rfl
        · rw [if_neg same, if_neg same, Option.or_none]

end Outline

namespace Node

@[simp] theorem outline_dict (entries : Entries Node) (origin : Origin) :
    (dict entries origin).outline = Outline.ofEntries entries := by
  funext way
  cases way <;> rfl

/-- Of two nodes that fit, both are dictionaries. -/
theorem isDict_of_fits {present added : Node} (fits : present.outline.Fits added.outline) :
    present.isDict = true ∧ added.isDict = true := by
  obtain ⟨one, two⟩ := fits [] present.mark added.mark rfl rfl
  constructor
  · cases present with
    | dict entries origin => rfl
    | scalar value origin => cases one
    | list items origin => cases one
  · cases added with
    | dict entries origin => rfl
    | scalar value origin => cases two
    | list items origin => cases two

/-- The outline of what a merge gives, if it succeeds. -/
def mergedOutline? (merged : Node × Option ContextError) : Option Outline :=
  match merged.2 with
  | none => some merged.1.outline
  | some _ => none

theorem eq_of_mergedOutline? {merged : Node × Option ContextError} {outline : Outline}
    (given : mergedOutline? merged = some outline) :
    merged.2 = none ∧ merged.1.outline = outline := by
  unfold mergedOutline? at given
  split at given
  · next fine => exact ⟨fine, Option.some.inj given⟩
  · cases given

theorem conflict_of_mergedOutline? {merged : Node × Option ContextError}
    (none : mergedOutline? merged = none) : ∃ error, merged.2 = some error := by
  unfold mergedOutline? at none
  split at none
  · cases none
  · next error found => exact ⟨error, found⟩

theorem mergedOutline?_replaced {key : String} {present added : Node}
    (apart : present.isDict = false ∨ added.isDict = false) :
    mergedOutline? (replaced false key present added) = present.outline.add added.outline := by
  rw [Outline.add_of_not_fits]
  · rfl
  · intro fits
    obtain ⟨one, two⟩ := isDict_of_fits fits
    rcases apart with other | other
    · rw [one] at other
      cases other
    · rw [two] at other
      cases other

/-- The outline of the entries that a merge leaves, if it succeeds. -/
def mergedEntriesOutline? (merged : Entries Node × Option ContextError) : Option Outline :=
  match merged.2 with
  | none => some (Outline.ofEntries merged.1)
  | some _ => none

mutual

/-- A merge adds up outlines. -/
theorem mergedOutline?_merge (key : String) (present added : Node) (distinct : added.Distinct) :
    mergedOutline? (merge false key present added) = present.outline.add added.outline := by
  match added with
  | .scalar value origin => exact mergedOutline?_replaced (Or.inr rfl)
  | .list items origin => exact mergedOutline?_replaced (Or.inr rfl)
  | .dict added origin =>
      cases present with
      | scalar value kept => exact mergedOutline?_replaced (Or.inl rfl)
      | list items kept => exact mergedOutline?_replaced (Or.inl rfl)
      | dict entries kept =>
          have parts := mergedEntriesOutline?_merge entries added
            ((distinct_dict added origin).mp distinct)
          rw [outline_dict, outline_dict, ← parts, merge]
          unfold mergedOutline? mergedEntriesOutline?
          dsimp only
          rw [outline_dict]

theorem mergedEntriesOutline?_merge (into : Entries Node) (added : List (String × Node))
    (distinct : (Entries.keys added).Nodup ∧ ∀ entry ∈ added, entry.2.Distinct) :
    mergedEntriesOutline? (mergeEntries false into added) =
      (Outline.ofEntries into).add (Outline.ofEntries added) := by
  match added with
  | [] =>
      rw [Outline.add_nothing, mergeEntries]
      rfl
  | (key, node) :: rest =>
      rw [Entries.keys_cons, List.nodup_cons, List.forall_mem_cons] at distinct
      obtain ⟨⟨absent, names⟩, here, later⟩ := distinct
      rw [Outline.ofEntries_cons absent, Outline.add_union (Outline.under_fits absent _)]
      cases found : Entries.value? key into with
      | none =>
          have free := (Entries.value?_eq_none_iff key into).mp found
          rw [mergeEntries_cons_of_none found, Outline.add_under_of_none found,
            ← Entries.put_of_not_mem free]
          exact mergedEntriesOutline?_merge _ rest ⟨names, later⟩
      | some present =>
          have first := mergedOutline?_merge key present node here
          obtain ⟨room, union⟩ := Outline.add_under_of_some found node.outline
          -- What is under the name decides, and then it is the union that the rest is added to.
          by_cases fits : present.outline.Fits node.outline
          · rw [Outline.add_of_fits fits] at first
            obtain ⟨merged, outline⟩ := eq_of_mergedOutline? first
            rw [Outline.add_of_fits (room.mpr fits), union _ outline,
              mergeEntries_cons_of_merged found merged]
            exact mergedEntriesOutline?_merge _ rest ⟨names, later⟩
          · rw [Outline.add_of_not_fits fits] at first
            obtain ⟨error, conflict⟩ := conflict_of_mergedOutline? first
            rw [Outline.add_of_not_fits (fun fit => fits (room.mp fit)),
              mergeEntries_cons_of_conflict found conflict]
            rfl

end

end Node

end StageTemplates
