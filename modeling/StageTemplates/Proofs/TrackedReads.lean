import StageTemplates.Proofs.DottedPaths
import StageTemplates.Proofs.Entries
import StageTemplates.Proofs.EntryOutcome

set_option autoImplicit false

/-!
What an evaluation reads. It is put together from selections of dotted paths, so what holds of these
holds of the whole: every read is one that a path found, and a stage depends on the variables
recorded for it, and on no others.
-/
namespace StageTemplates

/-- A relation of readings from two sets of variables which holds of readings put together alike, if
it holds of selecting the same path. -/
structure Congruent (first second : Entries Node)
    (related : ∀ {α : Type}, Reading α → Reading α → Prop) : Prop where
  silent : ∀ {α : Type} (outcome : Except ContextError α), related ⟨[], outcome⟩ ⟨[], outcome⟩
  bind : ∀ {α β : Type} {reading other : Reading α} {next next' : α → Reading β},
    related reading other → (∀ value, related (next value) (next' value)) →
      related (reading >>= next) (other >>= next')
  select : ∀ key, related (Scope.select first key) (Scope.select second key)

/-- The same scope with other variables. -/
def Scope.withData (scope : Scope) (data : Entries Node) : Scope := { scope with data }

namespace Congruent

open Scope

variable {first second : Entries Node} {related : ∀ {α : Type}, Reading α → Reading α → Prop}
variable (congruent : Congruent first second related) (scope : Scope)
include congruent

theorem pure {α : Type} (value : α) : related (Reading.pure value) (Reading.pure value) :=
  congruent.silent (.ok value)

theorem ofToken {α : Type} (outcome : Except TokenError α) :
    related (Reading.ofToken outcome) (Reading.ofToken outcome) := by
  cases outcome with
  | error error => exact congruent.silent _
  | ok value => exact congruent.silent _

theorem ofSyntax {α : Type} (outcome : Except SyntaxFault α) :
    related (Reading.ofSyntax outcome) (Reading.ofSyntax outcome) := by
  cases outcome with
  | error fault => exact congruent.silent _
  | ok value => exact congruent.silent _

theorem tokenNode (inner : List Char) :
    related ((scope.withData first).tokenNode inner) ((scope.withData second).tokenNode inner) :=
  congruent.bind (congruent.ofSyntax _) fun path => congruent.select path

theorem tokenText (inner : List Char) :
    related ((scope.withData first).tokenText inner) ((scope.withData second).tokenText inner) := by
  refine congruent.bind (congruent.tokenNode scope inner) fun node => ?_
  dsimp only [withData]
  split
  · exact congruent.silent _
  · exact congruent.ofToken _

theorem filled (pieces : List Piece) :
    related ((scope.withData first).filled pieces) ((scope.withData second).filled pieces) := by
  induction pieces with
  | nil => exact congruent.pure _
  | cons piece rest ih =>
      cases piece with
      | char c => exact congruent.bind ih fun _ => congruent.pure _
      | token inner =>
          refine congruent.bind (congruent.tokenText scope inner) fun text => ?_
          exact congruent.bind ih fun _ => congruent.pure _

theorem resolveText (text : String) :
    related ((scope.withData first).resolveText text)
      ((scope.withData second).resolveText text) := by
  unfold Scope.resolveText
  dsimp only
  split
  · exact congruent.bind (congruent.tokenNode scope _) fun _ => congruent.pure _
  · exact congruent.bind (congruent.filled scope _) fun _ => congruent.pure _

theorem entryName (value : Value) :
    related ((scope.withData first).entryName value) ((scope.withData second).entryName value) := by
  unfold Scope.entryName
  split
  · exact congruent.pure _
  · exact congruent.ofToken _

omit congruent

mutual

theorem resolve (congruent : Congruent first second related) (scope : Scope) (value : Value) :
    related ((scope.withData first).resolve value) ((scope.withData second).resolve value) := by
  match value with
  | .scalar (.string text) =>
      rw [Scope.resolve, Scope.resolve]
      exact congruent.resolveText scope text
  | .scalar .null => exact congruent.pure _
  | .scalar (.bool _) => exact congruent.pure _
  | .scalar (.int _) => exact congruent.pure _
  | .scalar (.float _) => exact congruent.pure _
  | .list items =>
      rw [Scope.resolve, Scope.resolve]
      exact congruent.bind (resolveItems congruent scope items) fun _ => congruent.pure _
  | .dict entries =>
      rw [Scope.resolve, Scope.resolve]
      exact congruent.bind (resolveEntries congruent scope [] entries) fun _ => congruent.pure _

theorem resolveItems (congruent : Congruent first second related) (scope : Scope)
    (items : List Value) :
    related ((scope.withData first).resolveItems items)
      ((scope.withData second).resolveItems items) := by
  match items with
  | [] => exact congruent.pure _
  | item :: rest =>
      rw [Scope.resolveItems, Scope.resolveItems]
      refine congruent.bind (resolve congruent scope item) fun _ => ?_
      exact congruent.bind (resolveItems congruent scope rest) fun _ => congruent.pure _

/-- A key is read before what it names, so each entry goes on from the same names on both sides. -/
theorem resolveEntries (congruent : Congruent first second related) (scope : Scope)
    (done : Entries Value) (entries : List (String × Value)) :
    related ((scope.withData first).resolveEntries done entries)
      ((scope.withData second).resolveEntries done entries) := by
  match entries with
  | [] => exact congruent.pure _
  | (key, value) :: rest =>
      rw [Scope.resolveEntries, Scope.resolveEntries]
      refine congruent.bind (congruent.resolveText scope key) fun name => ?_
      refine congruent.bind (congruent.entryName scope name) fun name => ?_
      refine congruent.bind (resolve congruent scope value) fun value => ?_
      exact resolveEntries congruent scope (Entries.put name value done) rest

end

end Congruent

section Reads

variable {α β : Type} {data : Entries Node}

/-- Every read is one that a dotted path finds among the variables. -/
def Reading.Finds (data : Entries Node) (reading : Reading α) : Prop :=
  ∀ read ∈ reading.reads, ∃ key, Scope.find? data key = some read

theorem Reading.Finds.bind {reading : Reading α} {next : α → Reading β}
    (here : reading.Finds data) (there : ∀ value, (next value).Finds data) :
    (reading >>= next).Finds data := by
  intro read member
  change read ∈ (Reading.bind reading next).reads at member
  cases outcome : reading.outcome with
  | error error =>
      rw [bind_of_error outcome] at member
      exact here read member
  | ok value =>
      rw [bind_of_ok outcome] at member
      exact (List.mem_append.mp member).elim (here read) (there value read)

theorem congruent_finds (data : Entries Node) :
    Congruent data data fun reading _ => reading.Finds data where
  silent outcome := by
    intro read member
    cases member
  bind here there := here.bind there
  select key := by
    intro read member
    unfold Scope.select at member
    split at member
    · next found =>
        rw [List.mem_singleton] at member
        exact ⟨key, member ▸ found⟩
    · cases member

theorem Scope.finds_resolve (scope : Scope) (value : Value) :
    (scope.resolve value).Finds scope.data :=
  (congruent_finds scope.data).resolve scope value

theorem Entry.finds_readFields {style : Style} {unchecked : Bool} {fields : List (String × Value)} :
    ∀ read ∈ (readFields data style unchecked fields).reads,
      ∃ key, Scope.find? data key = some read := by
  induction fields with
  | nil =>
      intro read member
      cases member
  | cons field rest ih =>
      obtain ⟨key, value⟩ := field
      have here := Scope.finds_resolve ⟨data, style, some key, unchecked⟩ value
      intro read member
      rw [readFields] at member
      dsimp only at member
      split at member
      · exact here read member
      · exact (List.mem_append.mp member).elim (here read) (ih read)

end Reads

section Repeats

variable {α β : Type} {first second : Entries Node}

/-- The other reading is the same, if this one succeeds and the second variables hold the same as
the first under every name that it reads. -/
def Reading.Repeats (first second : Entries Node) (reading other : Reading α) : Prop :=
  ∀ value, reading.outcome = .ok value →
    (∀ read ∈ reading.reads, Entries.value? read.name first = Entries.value? read.name second) →
    other = reading

/-- Of two readings in turn each is repeated, the second from what the first gave. -/
theorem Reading.Repeats.bind {reading other : Reading α} {next next' : α → Reading β}
    (here : Repeats first second reading other)
    (there : ∀ value, Repeats first second (next value) (next' value)) :
    Repeats first second (reading >>= next) (other >>= next') := by
  intro result success agree
  change Reading.bind other next' = Reading.bind reading next
  change (Reading.bind reading next).outcome = .ok result at success
  change ∀ read ∈ (Reading.bind reading next).reads, _ at agree
  cases outcome : reading.outcome with
  | error error =>
      rw [bind_of_error outcome] at success
      cases success
  | ok value =>
      rw [bind_of_ok outcome] at success agree
      rw [List.forall_mem_append] at agree
      obtain rfl := here value outcome agree.1
      rw [bind_of_ok outcome, bind_of_ok outcome, there value result success agree.2]

theorem Scope.repeats_select (key : String) :
    Reading.Repeats first second (select first key) (select second key) := by
  intro node success agree
  cases found : find? first key with
  | none =>
      rw [select, found] at success
      cases success
  | some read =>
      obtain ⟨rest, top, split, there, followed⟩ := find?_eq_some_iff.mp found
      rw [select, found] at agree
      have same : Entries.value? read.name first = Entries.value? read.name second :=
        agree read (List.mem_singleton_self read)
      have again : find? second key = some read :=
        find?_eq_some_iff.mpr ⟨rest, top, split, same.symm.trans there, followed⟩
      rw [select, select, found, again]

theorem congruent_repeats (first second : Entries Node) :
    Congruent first second (Reading.Repeats first second) where
  silent _ := fun _ _ _ => rfl
  bind := Reading.Repeats.bind
  select := Scope.repeats_select

namespace Entry

/-- Fields are resolved in turn, each as a value of its own. -/
theorem readFields_repeats (style : Style) (unchecked : Bool) {fields : List (String × Value)}
    {values : Entries Value}
    (success : (readFields first style unchecked fields).outcome = .ok values)
    (agree : ∀ read ∈ (readFields first style unchecked fields).reads,
      Entries.value? read.name first = Entries.value? read.name second) :
    readFields second style unchecked fields = readFields first style unchecked fields := by
  induction fields generalizing values with
  | nil => rfl
  | cons field rest ih =>
      obtain ⟨key, value⟩ := field
      have here : Reading.Repeats first second
          ((⟨first, style, some key, unchecked⟩ : Scope).resolve value)
          ((⟨second, style, some key, unchecked⟩ : Scope).resolve value) :=
        (congruent_repeats first second).resolve ⟨first, style, some key, unchecked⟩ value
      rw [readFields] at success agree
      dsimp only at success agree
      cases outcome : ((⟨first, style, some key, unchecked⟩ : Scope).resolve value).outcome with
      | error error =>
          rw [outcome] at success
          cases success
      | ok resolved =>
          rw [outcome] at success agree
          dsimp only at success agree
          rw [List.forall_mem_append] at agree
          cases later : (readFields first style unchecked rest).outcome with
          | error failure =>
              rw [later] at success
              cases success
          | ok others =>
              rw [readFields, readFields, here resolved outcome agree.1, ih later agree.2]

end Entry

end Repeats

namespace Tracked

theorem mem_addKey {key name : String} {keys : List String} :
    name ∈ addKey key keys ↔ name = key ∨ name ∈ keys := by
  unfold addKey
  split
  · next present =>
      have member : key ∈ keys := by simpa using present
      exact ⟨Or.inr, fun either => either.elim (fun same => same ▸ member) id⟩
  · rw [List.mem_append, List.mem_singleton, or_comm]

theorem keys_record (tracked : Tracked) (read : Read) :
    (tracked.record read).keys = addKey read.name tracked.keys := by
  unfold record
  split
  · rfl
  · split
    · rfl
    · rfl

/-- A record has the name of every read, local or not. -/
theorem mem_keys_recordAll {tracked : Tracked} {reads : List Read} {name : String} :
    name ∈ (tracked.recordAll reads).keys ↔
      name ∈ tracked.keys ∨ ∃ read ∈ reads, read.name = name := by
  induction reads generalizing tracked with
  | nil => simp
  | cons read rest ih =>
      change name ∈ ((tracked.record read).recordAll rest).keys ↔ _
      rw [ih, keys_record, mem_addKey, List.exists_mem_cons_iff, @eq_comm _ read.name, or_assoc,
        or_left_comm]

/-- The record says that the file has the value at the path. -/
def Records (tracked : Tracked) (file path : String) (value : Value) : Prop :=
  ∃ values, (file, values) ∈ tracked.sources ∧ (path, value) ∈ values

/-- What the record says that the file has at the path. -/
def value? (tracked : Tracked) (file path : String) : Option Value :=
  (Entries.value? file tracked.sources).bind (Entries.value? path)

variable {file path : String} {value : Value}

theorem records_of_value? {tracked : Tracked} (found : tracked.value? file path = some value) :
    tracked.Records file path value := by
  obtain ⟨values, listed, member⟩ := Option.bind_eq_some_iff.mp found
  exact ⟨values, Entries.mem_of_value? listed, Entries.mem_of_value? member⟩

theorem records_record {tracked : Tracked} {read : Read}
    (records : (tracked.record read).Records file path value) :
    tracked.Records file path value ∨
      read.node.origin.isLocal = false ∧ read.node.report? = some (file, path) ∧
        read.node.toValue = value := by
  obtain ⟨values, listed, member⟩ := records
  unfold record at listed
  split at listed
  · exact Or.inl ⟨values, listed, member⟩
  · next distant =>
      split at listed
      · exact Or.inl ⟨values, listed, member⟩
      · next source place reported =>
          rcases Entries.mem_put listed with same | kept
          · cases same
            rcases Entries.mem_put member with same | kept
            · cases same
              exact Or.inr ⟨by simpa using distant, reported, rfl⟩
            · cases found : Entries.value? file tracked.sources with
              | none =>
                  rw [found] at kept
                  cases kept
              | some values =>
                  rw [found] at kept
                  exact Or.inl ⟨values, Entries.mem_of_value? found, kept⟩
          · exact Or.inl ⟨values, kept, member⟩

/-- What is recorded was read. -/
theorem read_of_records {reads : List Read} {tracked : Tracked}
    (records : (tracked.recordAll reads).Records file path value) :
    tracked.Records file path value ∨
      ∃ read ∈ reads, read.node.origin.isLocal = false ∧
        read.node.report? = some (file, path) ∧ read.node.toValue = value := by
  induction reads generalizing tracked with
  | nil => exact Or.inl records
  | cons read rest ih =>
      have rest : ((tracked.record read).recordAll rest).Records file path value := records
      rcases ih rest with before | ⟨later, member, reported⟩
      · rcases records_record before with before | here
        · exact Or.inl before
        · exact Or.inr ⟨read, List.mem_cons_self, here⟩
      · exact Or.inr ⟨later, List.mem_cons_of_mem _ member, reported⟩

end Tracked

theorem Node.of_report? {node : Node} {file path : String}
    (reported : node.report? = some (file, path)) :
    node.isDict = false ∧ node.origin.source = some file ∧ path = node.origin.dotted := by
  cases node with
  | dict entries origin => cases reported
  | scalar value origin =>
      obtain ⟨source, named, same⟩ := Option.map_eq_some_iff.mp reported
      cases same
      exact ⟨rfl, named, rfl⟩
  | list items origin =>
      obtain ⟨source, named, same⟩ := Option.map_eq_some_iff.mp reported
      cases same
      exact ⟨rfl, named, rfl⟩

namespace Entry

variable {entry : Entry} {first second : Context} {stage : Stage}

/-- Where a stage comes out of one context, the same stage with the same record comes out of any
context of the same style that holds the same nodes under the names recorded. -/
theorem resolve_of_same_tracked (style : first.style = second.style)
    (success : (entry.resolve first).1 = .ok stage)
    (agree : ∀ key ∈ stage.tracked.keys, first.get? key = second.get? key) :
    (entry.resolve second).1 = .ok stage := by
  rw [resolve_eq] at success ⊢
  unfold checkedOutcome at success ⊢
  cases fault : entry.syntaxFault? with
  | some error =>
      rw [fault] at success
      cases success
  | none =>
      rw [fault] at success
      dsimp only [outcome] at success ⊢
      rw [← style]
      cases read : (readFields first.data first.style false entry.fields).outcome with
      | error failure =>
          rw [read] at success
          cases success
      | ok fields =>
          rw [read] at success
          cases success
          have held : ∀ one ∈ (readFields first.data first.style false entry.fields).reads,
              Entries.value? one.name first.data = Entries.value? one.name second.data := by
            intro one member
            exact agree one.name (Tracked.mem_keys_recordAll.mpr (Or.inr ⟨one, member, rfl⟩))
          rw [readFields_repeats first.style false read held, read]

/-- A stage that reads one variable, alone and within other text. -/
def rateEntry : Entry :=
  { name := "train", path := "dvc.yaml"
    fields := [("cmd", .string "train ${lr}"), ("params", .list [.string "${lr}"])] }

theorem rateEntry_resolve_elsewhere :
    let first := Context.ofEntries {} [("lr", .int 1), ("depth", .int 3)]
    let second : Context := { Context.ofEntries {} [("seed", .int 7), ("lr", .int 1)] with
      reserved := ["lr"] }
    let stage : Stage :=
      ⟨"train", [("cmd", .string "train 1"), ("params", .list [.int 1])], ⟨["lr"], []⟩⟩
    first.style = second.style ∧ (rateEntry.resolve first).1 = .ok stage ∧
      (∀ key ∈ stage.tracked.keys, first.get? key = second.get? key) ∧
      (rateEntry.resolve second).1 = .ok stage := by
  intro first second stage
  have style : first.style = second.style := rfl
  have success : (rateEntry.resolve first).1 = .ok stage := by cbv
  have agree : ∀ key ∈ stage.tracked.keys, first.get? key = second.get? key :=
    List.forall_mem_singleton.mpr rfl
  exact ⟨style, success, agree, resolve_of_same_tracked style success agree⟩

end Entry

end StageTemplates
