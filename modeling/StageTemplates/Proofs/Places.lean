import Mathlib
import StageTemplates.Proofs.DottedPaths
import StageTemplates.Proofs.LoadedVariables
import StageTemplates.Proofs.MergedEntries

set_option autoImplicit false

/-!
Places in values, in nodes and among variables: the names of entries and the numbers of items on the
way to a part. A merge brings no part to a place where neither side had one.
-/
namespace StageTemplates

/-- A part of a place: the name of an entry of a dictionary, or the number of an item of a list. -/
inductive Segment where
  | entry (name : String)
  | item (index : Nat)
deriving DecidableEq, Repr

namespace Segment

def text : Segment → String
  | entry name => name
  | item index => toString index

/-- Whether a dotted path can name the segment. -/
def Addressable : Segment → Prop
  | entry name => PlainSegment name
  | item index => index < Nat.pow 2 64

theorem Addressable.plain {segment : Segment} (addressable : segment.Addressable) :
    PlainSegment segment.text := by
  cases segment with
  | entry name => exact addressable
  | item index => exact plainSegment_toString index

/-- The place as it is noted in nodes and in records. -/
def texts (place : List Segment) : List String := place.map text

theorem plain_of_mem_texts {place : List Segment}
    (addressable : ∀ segment ∈ place, segment.Addressable) :
    ∀ written ∈ texts place, PlainSegment written := by
  rw [texts, List.forall_mem_map]
  exact fun segment member => (addressable segment member).plain

end Segment

open Segment (texts)

/-- What a place leads to, where `holds` says what a thing directly holds under a segment. -/
def Leads {α : Type} (holds : α → Segment → α → Prop) : α → List Segment → α → Prop
  | whole, [], part => part = whole
  | whole, segment :: place, part =>
      ∃ child, holds whole segment child ∧ Leads holds child place part

section

variable {α β : Type} {holds : α → Segment → α → Prop}

theorem leads_map {holds' : β → Segment → β → Prop} {f : α → β}
    (kept : ∀ whole segment child, holds whole segment child →
      holds' (f whole) segment (f child)) {place : List Segment} {whole part : α}
    (leads : Leads holds whole place part) : Leads holds' (f whole) place (f part) := by
  induction place generalizing whole with
  | nil => exact congrArg f leads
  | cons segment rest ih =>
      obtain ⟨child, here, later⟩ := leads
      exact ⟨f child, kept whole segment child here, ih later⟩

theorem leads_append {first second : List Segment} {whole middle part : α}
    (start : Leads holds whole first middle) (later : Leads holds middle second part) :
    Leads holds whole (first ++ second) part := by
  induction first generalizing whole with
  | nil => exact start ▸ later
  | cons segment rest ih =>
      obtain ⟨child, here, there⟩ := start
      exact ⟨child, here, ih there⟩

end

namespace Value

/-- A dictionary holds its entries under their names, a list its items under their numbers. -/
def Holds : Value → Segment → Value → Prop
  | list items, .item index, child => items[index]? = some child
  | dict entries, .entry name, child => (name, child) ∈ entries
  | _, _, _ => False

/-- The part of a value at a place. -/
def At : Value → List Segment → Value → Prop := Leads Holds

theorem Distinct.of_holds {whole child : Value} {segment : Segment} (distinct : whole.Distinct)
    (held : whole.Holds segment child) : child.Distinct := by
  cases whole with
  | scalar value => exact held.elim
  | list items =>
      cases segment with
      | entry name => exact held.elim
      | item index => exact (distinct_list items).mp distinct child (List.mem_of_getElem? held)
  | dict entries =>
      cases segment with
      | entry name => exact ((distinct_dict entries).mp distinct).2 (name, child) held
      | item index => exact held.elim

theorem Distinct.holds_unique {whole first second : Value} {segment : Segment}
    (distinct : whole.Distinct) (one : whole.Holds segment first)
    (other : whole.Holds segment second) : first = second := by
  cases whole with
  | scalar value => exact one.elim
  | list items =>
      cases segment with
      | entry name => exact one.elim
      | item index => exact Option.some.inj (Eq.trans (Eq.symm one) other)
  | dict entries =>
      cases segment with
      | item index => exact one.elim
      | entry name =>
          have names := ((distinct_dict entries).mp distinct).1
          have here := Entries.value?_of_mem names one
          rw [Entries.value?_of_mem names other] at here
          exact (Option.some.inj here).symm

/-- With distinct names there is one part at most at each place. -/
theorem Distinct.at_unique {whole first second : Value} {place : List Segment}
    (distinct : whole.Distinct) (one : whole.At place first) (other : whole.At place second) :
    first = second := by
  induction place generalizing whole with
  | nil => exact one.trans other.symm
  | cons segment rest ih =>
      obtain ⟨child, here, later⟩ := one
      obtain ⟨child', there, later'⟩ := other
      obtain rfl := distinct.holds_unique here there
      exact ih (distinct.of_holds here) later later'

/-- Places that read alike are the same, since what is at a place is a list or a dictionary. -/
theorem Distinct.place_unique {whole first second : Value} {place place' : List Segment}
    (distinct : whole.Distinct) (one : whole.At place first) (other : whole.At place' second)
    (alike : texts place = texts place') : place = place' := by
  induction place generalizing whole place' with
  | nil => exact (List.map_eq_nil_iff.mp alike.symm).symm
  | cons segment rest ih =>
      cases place' with
      | nil => cases alike
      | cons segment' rest' =>
          obtain ⟨same, later⟩ := List.cons.inj alike
          obtain ⟨child, here, there⟩ := one
          obtain ⟨child', here', there'⟩ := other
          have equal : segment = segment' := by
            cases whole with
            | scalar value => exact here.elim
            | list items =>
                cases segment with
                | entry name => exact here.elim
                | item index =>
                    cases segment' with
                    | entry name => exact here'.elim
                    | item index' => exact congrArg Segment.item (Nat.repr_inj.mp same)
            | dict entries =>
                cases segment with
                | item index => exact here.elim
                | entry name =>
                    cases segment' with
                    | item index => exact here'.elim
                    | entry name' => exact congrArg Segment.entry same
          subst equal
          obtain rfl := distinct.holds_unique here here'
          rw [ih (distinct.of_holds here) there there' later]

end Value

/-- The origin of what lies further down. -/
def Origin.below (origin : Origin) (place : List Segment) : Origin :=
  { origin with path := origin.path ++ texts place }

namespace Origin

@[simp] theorem below_nil (origin : Origin) : origin.below [] = origin := by
  simp only [below, texts, List.map_nil, List.append_nil]

@[simp] theorem below_child (origin : Origin) (segment : Segment) (place : List Segment) :
    (origin.child segment.text).below place = origin.below (segment :: place) := by
  simp only [below, child, texts, List.append_assoc, List.singleton_append, List.map_cons]

end Origin

namespace Node

/-- As for values: entries under their names, items under their numbers. -/
def Holds : Node → Segment → Node → Prop
  | list items _, .item index, child => items[index]? = some child
  | dict entries _, .entry name, child => (name, child) ∈ entries
  | _, _, _ => False

/-- The part of a node at a place. -/
def At : Node → List Segment → Node → Prop := Leads Holds

theorem toItems_eq_map (items : List Node) : toItems items = items.map toValue := by
  induction items with
  | nil => rfl
  | cons item rest ih => rw [toItems, ih, List.map_cons]

theorem toEntries_eq_map (entries : List (String × Node)) :
    toEntries entries = entries.map fun entry => (entry.1, entry.2.toValue) := by
  induction entries with
  | nil => rfl
  | cons entry rest ih =>
      obtain ⟨key, node⟩ := entry
      rw [toEntries, ih, List.map_cons]

theorem holds_toValue {whole : Node} {segment : Segment} {child : Node}
    (held : whole.Holds segment child) : whole.toValue.Holds segment child.toValue := by
  cases whole with
  | scalar value origin => exact held.elim
  | list items origin =>
      cases segment with
      | entry name => exact held.elim
      | item index =>
          change (toItems items)[index]? = some child.toValue
          rw [toItems_eq_map, List.getElem?_map, show items[index]? = some child from held]
          rfl
  | dict entries origin =>
      cases segment with
      | item index => exact held.elim
      | entry name =>
          change (name, child.toValue) ∈ toEntries entries
          rw [toEntries_eq_map]
          exact List.mem_map_of_mem (f := fun entry => (entry.1, entry.2.toValue)) held

theorem At.toValue {whole part : Node} {place : List Segment} (reached : whole.At place part) :
    whole.toValue.At place part.toValue :=
  leads_map (f := Node.toValue) (fun _ _ _ => holds_toValue) reached

theorem getElem?_ofItems (origin : Origin) (start index : Nat) (items : List Value) :
    (ofItems origin start items)[index]? =
      (items[index]?).map (ofValue (origin.child (toString (start + index)))) := by
  induction items generalizing start index with
  | nil => rfl
  | cons item rest ih =>
      cases index with
      | zero => rfl
      | succ index =>
          rw [ofItems, List.getElem?_cons_succ, List.getElem?_cons_succ, ih, Nat.add_assoc,
            Nat.add_comm 1]

theorem ofEntries_eq_map (origin : Origin) (entries : List (String × Value)) :
    ofEntries origin entries =
      entries.map fun entry => (entry.1, ofValue (origin.child entry.1) entry.2) := by
  induction entries with
  | nil => rfl
  | cons entry rest ih =>
      obtain ⟨key, value⟩ := entry
      rw [ofEntries, ih, List.map_cons]

theorem ofEntries_append (origin : Origin) (first second : List (String × Value)) :
    ofEntries origin (first ++ second) = ofEntries origin first ++ ofEntries origin second := by
  rw [ofEntries_eq_map, List.map_append, ← ofEntries_eq_map, ← ofEntries_eq_map]

/-- A value at a place holds what it holds anywhere, one segment further down. -/
theorem holds_ofValue_iff {origin : Origin} {value : Value} {segment : Segment} {node : Node} :
    (ofValue origin value).Holds segment node ↔
      ∃ child, value.Holds segment child ∧ node = ofValue (origin.child segment.text) child := by
  cases value with
  | scalar value => exact ⟨False.elim, fun ⟨_, held, _⟩ => held.elim⟩
  | list items =>
      cases segment with
      | entry name => exact ⟨False.elim, fun ⟨_, held, _⟩ => held.elim⟩
      | item index =>
          change (ofItems origin 0 items)[index]? = some node ↔
            ∃ child, items[index]? = some child ∧ _
          rw [getElem?_ofItems, Nat.zero_add, Option.map_eq_some_iff]
          simp only [eq_comm, Segment.text]
  | dict entries =>
      cases segment with
      | item index => exact ⟨False.elim, fun ⟨_, held, _⟩ => held.elim⟩
      | entry name =>
          change (name, node) ∈ ofEntries origin entries ↔ ∃ child, (name, child) ∈ entries ∧ _
          rw [ofEntries_eq_map, List.mem_map]
          constructor
          · rintro ⟨⟨name, child⟩, member, same⟩
            cases same
            exact ⟨child, member, rfl⟩
          · rintro ⟨child, member, rfl⟩
            exact ⟨(name, child), member, rfl⟩

theorem at_ofValue_iff {origin : Origin} {value : Value} {place : List Segment} {node : Node} :
    (ofValue origin value).At place node ↔
      ∃ part, value.At place part ∧ node = ofValue (origin.below place) part := by
  induction place generalizing origin value with
  | nil =>
      rw [Origin.below_nil]
      constructor
      · rintro rfl
        exact ⟨value, rfl, rfl⟩
      · rintro ⟨part, rfl, rfl⟩
        rfl
  | cons segment rest ih =>
      constructor
      · rintro ⟨child, here, later⟩
        obtain ⟨value', held, rfl⟩ := holds_ofValue_iff.mp here
        obtain ⟨part, reached, rfl⟩ := ih.mp later
        exact ⟨part, ⟨value', held, reached⟩, by rw [Origin.below_child]⟩
      · rintro ⟨part, ⟨value', held, reached⟩, rfl⟩
        refine ⟨_, holds_ofValue_iff.mpr ⟨value', held, rfl⟩, ih.mpr ⟨part, reached, ?_⟩⟩
        rw [Origin.below_child]

/-- What lies at a place among named nodes. Together they are no node themselves. -/
def Among (entries : Entries Node) (place : List Segment) (node : Node) : Prop :=
  ∃ name first rest, place = .entry name :: rest ∧ (name, first) ∈ entries ∧ first.At rest node

theorem among_iff_at {entries : Entries Node} {place : List Segment} {node : Node}
    (origin : Origin) :
    Among entries place node ↔ place ≠ [] ∧ (dict entries origin).At place node := by
  constructor
  · rintro ⟨name, first, rest, rfl, member, reached⟩
    exact ⟨List.cons_ne_nil _ _, first, member, reached⟩
  · rintro ⟨nonempty, reached⟩
    cases place with
    | nil => exact absurd rfl nonempty
    | cons segment rest =>
        obtain ⟨first, held, later⟩ := reached
        cases segment with
        | entry name => exact ⟨name, first, rest, rfl, held, later⟩
        | item index => exact held.elim

theorem among_ofEntries_iff {origin : Origin} {entries : List (String × Value)}
    {place : List Segment} {node : Node} :
    Among (ofEntries origin entries) place node ↔
      place ≠ [] ∧ ∃ part, (Value.dict entries).At place part ∧
        node = ofValue (origin.below place) part := by
  rw [among_iff_at origin, ← at_ofValue_iff, ofValue]

theorem among_mono {entries more : Entries Node} (within : entries ⊆ more)
    {place : List Segment} {node : Node} (among : Among entries place node) :
    Among more place node := by
  obtain ⟨name, first, rest, split, member, reached⟩ := among
  exact ⟨name, first, rest, split, within member, reached⟩

theorem among_append {first second : Entries Node} {place : List Segment} {node : Node}
    (among : Among (first ++ second) place node) :
    Among first place node ∨ Among second place node := by
  obtain ⟨name, top, rest, split, member, reached⟩ := among
  exact (List.mem_append.mp member).imp (fun here => ⟨name, top, rest, split, here, reached⟩)
    fun there => ⟨name, top, rest, split, there, reached⟩

/-- A node as it was, or a dictionary that took in entries where it was. -/
def Continues (node old : Node) : Prop :=
  node = old ∨ node.isDict = true ∧ old.isDict = true ∧ node.origin = old.origin

theorem Continues.refl (node : Node) : node.Continues node := Or.inl rfl

theorem Continues.trans {last node old : Node} (later : last.Continues node)
    (earlier : node.Continues old) : last.Continues old := by
  rcases later with rfl | ⟨isDict, middle, origin⟩
  · exact earlier
  · rcases earlier with rfl | ⟨-, wasDict, before⟩
    · exact Or.inr ⟨isDict, middle, origin⟩
    · exact Or.inr ⟨isDict, wasDict, origin.trans before⟩

/-- A node at a place where one of two sides had it, or had the dictionary that took in entries. -/
def FromEither (before added : List Segment → Node → Prop) (place : List Segment) (node : Node) :
    Prop :=
  ∃ old, (before place old ∨ added place old) ∧ node.Continues old

mutual

theorem at_merge (overwrite : Bool) (key : String) {present : Node} (added : Node)
    {place : List Segment} {node : Node}
    (reached : (merge overwrite key present added).1.At place node) :
    FromEither present.At added.At place node := by
  have replacement : ∀ added : Node, (replaced overwrite key present added).1.At place node →
      FromEither present.At added.At place node := by
    intro added reached
    unfold replaced at reached
    split at reached
    · exact ⟨node, Or.inr reached, Continues.refl node⟩
    · exact ⟨node, Or.inl reached, Continues.refl node⟩
  match added with
  | .scalar value origin => exact replacement _ reached
  | .list items origin => exact replacement _ reached
  | .dict added origin =>
      cases present with
      | scalar value kept => exact replacement _ reached
      | list items kept => exact replacement _ reached
      | dict entries kept =>
          cases place with
          | nil => exact ⟨_, Or.inl rfl, Or.inr ⟨by rw [reached]; rfl, rfl, by rw [reached]; rfl⟩⟩
          | cons segment place =>
              have nonempty := List.cons_ne_nil segment place
              obtain ⟨old, sides, continues⟩ :=
                among_mergeEntries overwrite added ((among_iff_at kept).mpr ⟨nonempty, reached⟩)
              refine ⟨old, sides.imp (fun before => ?_) (fun after => ?_), continues⟩
              · exact ((among_iff_at kept).mp before).2
              · exact ((among_iff_at origin).mp after).2

/-- Merging moves nothing to another place and makes up nothing. -/
theorem among_mergeEntries (overwrite : Bool) {into : Entries Node}
    (added : List (String × Node)) {place : List Segment} {node : Node}
    (reached : Among (mergeEntries overwrite into added).1 place node) :
    FromEither (Among into) (Among added) place node := by
  match added with
  | [] => exact ⟨node, Or.inl reached, Continues.refl node⟩
  | (key, addition) :: rest =>
      have later : ∀ {place old}, Among rest place old →
          Among ((key, addition) :: rest) place old := among_mono (List.subset_cons_self _ _)
      cases found : Entries.value? key into with
      | none =>
          rw [mergeEntries_cons_of_none found] at reached
          obtain ⟨old, before | after, continues⟩ := among_mergeEntries overwrite rest reached
          · rcases among_append before with before | one
            · exact ⟨old, Or.inl before, continues⟩
            · exact ⟨old, Or.inr (among_mono (by simp) one), continues⟩
          · exact ⟨old, Or.inr (later after), continues⟩
      | some present =>
          have written : ∀ {place : List Segment} {node : Node},
              Among (Entries.put key (merge overwrite key present addition).1 into) place node →
              FromEither (Among into) (Among ((key, addition) :: rest)) place node := by
            rintro place node ⟨name, first, rest', rfl, member, there⟩
            rcases Entries.mem_put member with same | kept
            · cases same
              have stands := Entries.mem_of_value? found
              obtain ⟨old, before | after, continues⟩ := at_merge overwrite key addition there
              · exact ⟨old, Or.inl ⟨key, present, rest', rfl, stands, before⟩, continues⟩
              · exact ⟨old, Or.inr ⟨key, addition, rest', rfl, List.mem_cons_self, after⟩,
                  continues⟩
            · exact ⟨node, Or.inl ⟨name, first, rest', rfl, kept, there⟩, Continues.refl node⟩
          cases ended : (merge overwrite key present addition).2 with
          | none =>
              rw [mergeEntries_cons_of_merged found ended] at reached
              obtain ⟨middle, before | after, continues⟩ :=
                among_mergeEntries overwrite rest reached
              · obtain ⟨old, sides, earlier⟩ := written before
                exact ⟨old, sides, continues.trans earlier⟩
              · exact ⟨middle, Or.inr (later after), continues⟩
          | some error =>
              rw [mergeEntries_cons_of_conflict found ended] at reached
              exact written reached

end

end Node

end StageTemplates
