import StageTemplates.Proofs.InTurn
import StageTemplates.Proofs.Places
import StageTemplates.Proofs.ScopedMerges

set_option autoImplicit false

/-!
Every variable knows where it is from: the path noted in a node is the node's own place, and what is
noted as read from a file is what that file has there.
-/
namespace StageTemplates

namespace Context

theorem ofFile?_eq_ok_iff {fs : FileSystem} {path : String} {keys : Option (List String)}
    {context : Context} :
    (ofFile? fs path keys).1 = .ok context ↔
      (fs.exists? path = true ∧ fs.isFolder path = false) ∧
        ∃ entries, fileEntries fs path keys = .ok entries ∧ context =
          { ofEntries (.ofSource path false) entries with imports := [(path, keys)] } := by
  unfold ofFile?
  cases fs.exists? path with
  | false => simp
  | true =>
      cases fs.isFolder path with
      | true => simp
      | false => cases fileEntries fs path keys <;> simp [eq_comm]

theorem pick_subset {path : String} {keys : List String} {entries picked : Entries Value}
    (given : pick path keys entries = .ok picked) : picked ⊆ entries := by
  induction keys generalizing entries picked with
  | nil =>
      cases given
      exact List.nil_subset _
  | cons key rest ih =>
      rw [pick] at given
      split at given
      · cases given
      · next value found =>
          split at given
          · next others later =>
              cases given
              refine List.cons_subset.mpr ⟨Entries.mem_of_value? found, fun entry member => ?_⟩
              exact Entries.mem_of_mem_erase (ih later member)
          · cases given

theorem fileEntries_none_eq_ok_iff {fs : FileSystem} {path : String} {entries : Entries Value} :
    fileEntries fs path none = .ok entries ↔ VariablesFile.load fs path = .ok (.dict entries) := by
  unfold fileEntries
  rcases VariablesFile.load fs path with failure | value
  · simp
  · cases value <;> simp

/-- What is taken from a file is part of the whole file. -/
theorem fileEntries_within {fs : FileSystem} {path : String} {keys : Option (List String)}
    {entries : Entries Value} (given : fileEntries fs path keys = .ok entries) :
    ∃ whole, fileEntries fs path none = .ok whole ∧ entries ⊆ whole := by
  unfold fileEntries at given
  split at given
  · cases given
  · next whole loaded =>
      refine ⟨whole, fileEntries_none_eq_ok_iff.mpr loaded, ?_⟩
      split at given
      · exact pick_subset given
      · cases given
        exact List.Subset.refl _
  · cases given

end Context

open Context
open Segment (texts)

namespace Node

/-- The file that the node names has it at the place. -/
def InFile (fs : FileSystem) (place : List Segment) (node : Node) : Prop :=
  ∃ file loaded, node.origin.source = some file ∧ (ofFile? fs file none).1 = .ok loaded ∧
    Among loaded.data place node

/-- A node that notes the place where it stands. If it is from a file and no dictionary, the file
has it there. -/
structure Placed (fs : FileSystem) (place : List Segment) (node : Node) : Prop where
  path : node.origin.path = texts place
  inFile : node.isDict = false → node.origin.isLocal = false → node.InFile fs place

theorem Placed.continue {fs : FileSystem} {place : List Segment} {node old : Node}
    (placed : old.Placed fs place) (continues : node.Continues old) : node.Placed fs place := by
  rcases continues with rfl | ⟨isDict, -, same⟩
  · exact placed
  · refine ⟨same ▸ placed.path, fun other => ?_⟩
    rw [isDict] at other
    cases other

end Node

namespace Context

/-- Every node among the variables notes the place where it stands, and what is from a file is so
in the file. -/
def Located (fs : FileSystem) (context : Context) : Prop :=
  ∀ place node, Node.Among context.data place node → node.Placed fs place

variable {fs : FileSystem}

theorem located_of_empty {context : Context} (empty : context.data = []) :
    context.Located fs := by
  rintro place node ⟨name, first, rest, -, member, -⟩
  rw [empty] at member
  cases member

theorem located_ofEntries_of_isLocal {origin : Origin} (root : origin.path = [])
    (isLocal : origin.isLocal = true) (entries : List (String × Value)) :
    (ofEntries origin entries).Located fs := by
  intro place node among
  obtain ⟨-, part, -, rfl⟩ := Node.among_ofEntries_iff.mp among
  refine ⟨?_, fun _ distant => ?_⟩
  · rw [Node.origin_ofValue, Origin.below, root, List.nil_append]
  · rw [Node.origin_ofValue, Origin.below, isLocal] at distant
    cases distant

theorem located_ofValue? {value : Value} {context : Context}
    (built : ofValue? value = .ok context) : context.Located fs := by
  cases value with
  | dict entries =>
      cases built
      exact located_ofEntries_of_isLocal rfl rfl entries
  | scalar value => cases built
  | list items => cases built

/-- A file that is loaded in part has what it would have if it were loaded whole. -/
theorem located_ofFile? {path : String} {keys : Option (List String)} {context : Context}
    (loaded : (ofFile? fs path keys).1 = .ok context) : context.Located fs := by
  obtain ⟨there, entries, given, rfl⟩ := ofFile?_eq_ok_iff.mp loaded
  obtain ⟨whole, all, within⟩ := fileEntries_within given
  intro place node among
  obtain ⟨nonempty, part, reached, rfl⟩ := Node.among_ofEntries_iff.mp among
  refine ⟨?_, fun _ _ => ⟨_, _, ?_, ofFile?_eq_ok_iff.mpr ⟨there, whole, all, rfl⟩, ?_⟩⟩
  · rw [Node.origin_ofValue, Origin.below]
    exact List.nil_append _
  · rw [Node.origin_ofValue]
    rfl
  · refine Node.among_mono ?_ among
    dsimp only [ofEntries]
    rw [Node.ofEntries_eq_map, Node.ofEntries_eq_map]
    exact List.map_subset _ within

theorem located_merge {context update : Context} (old : context.Located fs)
    (new : update.Located fs) (overwrite : Bool) :
    (context.merge update overwrite).2.Located fs := by
  have merged : ∀ place node,
      Node.Among (Node.mergeEntries overwrite context.data update.data).1 place node →
      node.Placed fs place := by
    intro place node among
    obtain ⟨before, here | there, continues⟩ := Node.among_mergeEntries overwrite _ among
    · exact (old place before here).continue continues
    · exact (new place before there).continue continues
  unfold merge
  split
  · dsimp only
    split
    · exact merged
    · exact merged
  · exact old

theorem keptWith_located : KeptWith (Located fs) (Located fs) where
  merge overwrite old new := located_merge old new overwrite
  imports _ located := located

end Context

namespace MergeStep

variable {fs : FileSystem}

theorem brings_located_file (item wdir : String) (overwrite : Bool) :
    (file item wdir overwrite).Brings fs (Located fs) := by
  intro imports update planned
  obtain ⟨path, keys, loaded⟩ := MergePlan.loaded_of_ofImport planned
  exact located_ofFile? loaded

theorem brings_located_ofItem (wdir stage : String) (index : Nat) (item : Value) :
    (ofItem wdir stage index item).Brings fs (Located fs) := by
  cases item with
  | list items =>
      intro imports update planned
      cases planned
  | dict entries =>
      intro imports update planned
      cases planned
      exact located_ofEntries_of_isLocal rfl rfl entries
  | scalar value =>
      cases value with
      | string item => exact brings_located_file item wdir false
      | _ =>
          intro imports update planned
          cases planned

end MergeStep

namespace MergeCall

variable {fs : FileSystem}

/-- A call brings in nothing out of place, if a context that it is given has nothing out of
place. -/
theorem brings_located_steps {call : MergeCall}
    (given : ∀ other overwrite, call = .step (.update other overwrite) → other.Located fs) :
    ∀ step ∈ call.steps fs, step.Brings fs (Located fs) := by
  cases call with
  | step single =>
      refine List.forall_mem_singleton.mpr ?_
      cases single with
      | update other overwrite =>
          intro imports update planned
          cases planned
          exact given other overwrite rfl
      | file item wdir overwrite => exact MergeStep.brings_located_file item wdir overwrite
      | refused kind =>
          intro imports update planned
          cases planned
  | vars items wdir stage standard =>
      exact forall_vars (fun file => MergeStep.brings_located_file file wdir false)
        fun item _ stage index => MergeStep.brings_located_ofItem wdir stage index item

theorem located_run {context : Context} (located : context.Located fs) {call : MergeCall}
    (given : ∀ other overwrite, call = .step (.update other overwrite) → other.Located fs) :
    (call.run fs context).context.Located fs := by
  rw [run_eq_inTurn]
  exact keptWith_located.inTurn fs (brings_located_steps given) located

theorem located_after {calls : List MergeCall}
    (given : ∀ other overwrite, .step (.update other overwrite) ∈ calls → other.Located fs)
    {context : Context} (located : context.Located fs) : (after fs calls context).Located fs := by
  induction calls generalizing context with
  | nil => exact located
  | cons call rest ih =>
      have first : (call.run fs context).context.Located fs := by
        refine located_run located fun other overwrite same => ?_
        exact given other overwrite (same ▸ List.mem_cons_self)
      refine ih (fun other overwrite member => ?_) first
      exact given other overwrite (List.mem_cons_of_mem _ member)

end MergeCall

section Selecting

variable {fs : FileSystem}

namespace Node

/-- What is found under a segment is held under it, a number of an item read as a number. -/
theorem holds_of_child? {written : String} {node child : Node} (plain : PlainSegment written)
    (found : node.child? written = some child) :
    ∃ segment, node.Holds segment child ∧ node.child? segment.text = some child ∧
      segment.Addressable := by
  cases node with
  | scalar value origin => cases found
  | list items origin =>
      obtain ⟨index, numbered, there⟩ := Option.bind_eq_some_iff.mp found
      have small := listIndex?_lt numbered
      refine ⟨.item index, there, ?_, small⟩
      rw [child?, Segment.text, listIndex?_toString small, Option.bind_some, there]
  | dict entries origin => exact ⟨.entry written, Entries.mem_of_value? found, found, plain⟩

/-- Whatever way a selection takes to a node, the segments of the node's place lead there too. -/
theorem at_of_follow? {way : List String} {node reached : Node}
    (plain : ∀ written ∈ way, PlainSegment written) (found : node.follow? way = some reached) :
    ∃ place, node.At place reached ∧ node.follow? (texts place) = some reached ∧
      ∀ segment ∈ place, segment.Addressable := by
  induction way generalizing node with
  | nil =>
      cases found
      exact ⟨[], rfl, rfl, by simp⟩
  | cons written rest ih =>
      obtain ⟨child, first, later⟩ := Option.bind_eq_some_iff.mp found
      rw [List.forall_mem_cons] at plain
      obtain ⟨segment, held, direct, addressable⟩ := holds_of_child? plain.1 first
      obtain ⟨place, reached, followed, others⟩ := ih plain.2 later
      refine ⟨segment :: place, ⟨child, held, reached⟩, ?_,
        List.forall_mem_cons.mpr ⟨addressable, others⟩⟩
      rw [texts, List.map_cons, follow?, direct, Option.bind_some]
      exact followed

end Node

namespace Node

theorem Distinct.of_holds {whole child : Node} {segment : Segment} (distinct : whole.Distinct)
    (held : whole.Holds segment child) : child.Distinct :=
  Value.Distinct.of_holds distinct (holds_toValue held)

/-- With distinct names, segments that a path can name lead to what is at the place. -/
theorem Distinct.follow?_of_at {whole part : Node} {place : List Segment}
    (distinct : whole.Distinct) (reached : whole.At place part)
    (addressable : ∀ segment ∈ place, segment.Addressable) :
    whole.follow? (texts place) = some part := by
  induction place generalizing whole with
  | nil => exact congrArg some reached.symm
  | cons segment rest ih =>
      obtain ⟨child, held, later⟩ := reached
      rw [List.forall_mem_cons] at addressable
      have direct : whole.child? segment.text = some child := by
        cases whole with
        | scalar value origin => exact held.elim
        | list items origin =>
            cases segment with
            | entry name => exact held.elim
            | item index =>
                rw [Node.child?, Segment.text, listIndex?_toString addressable.1, Option.bind_some]
                exact held
        | dict entries origin =>
            have names := ((distinct_dict entries origin).mp distinct).1
            cases segment with
            | item index => exact held.elim
            | entry name => exact Entries.value?_of_mem names held
      rw [texts, List.map_cons, Node.follow?, direct, Option.bind_some]
      exact ih (distinct.of_holds held) later addressable.2

end Node

namespace Scope

/-- What a dotted path selects, it selects at a place of which the path can name each segment. -/
theorem addressable_of_find? {data : Entries Node} {key : String} {read : Read}
    (found : find? data key = some read) :
    ∃ first place, Entries.value? read.name data = some first ∧ first.At place read.node ∧
      first.follow? (texts place) = some read.node ∧
        ∀ segment ∈ .entry read.name :: place, segment.Addressable := by
  obtain ⟨rest, first, split, there, followed⟩ := find?_eq_some_iff.mp found
  have plain : ∀ written ∈ read.name :: rest, PlainSegment written := by
    intro written member
    exact plainSegment_of_mem_pathSegments (split ▸ member)
  rw [List.forall_mem_cons] at plain
  obtain ⟨place, reached, direct, addressable⟩ := Node.at_of_follow? plain.2 followed
  exact ⟨first, place, there, reached, direct, List.forall_mem_cons.mpr ⟨plain.1, addressable⟩⟩

/-- The path of such a place leads where its segments lead. -/
theorem find?_of_addressable {data : Entries Node} {name : String} {first node : Node}
    {place : List Segment} (there : Entries.value? name data = some first)
    (followed : first.follow? (texts place) = some node)
    (addressable : ∀ segment ∈ .entry name :: place, segment.Addressable) :
    find? data (".".intercalate (texts (.entry name :: place))) = some ⟨name, node⟩ := by
  have segments := pathSegments_intercalate (List.cons_ne_nil _ _)
    (Segment.plain_of_mem_texts addressable)
  exact find?_eq_some_iff.mpr ⟨texts place, first, segments, there, followed⟩

end Scope

namespace Context

/-- What can be selected at all is found under its own path. -/
theorem select_dotted {context : Context} (located : context.Located fs) {key : String}
    {node : Node} (found : (context.select key).1 = .ok node) :
    (context.select node.origin.dotted).1 = .ok node := by
  obtain ⟨⟨name, node⟩, read, rfl⟩ := select_eq_ok_iff.mp found
  obtain ⟨first, place, there, reached, followed, addressable⟩ := Scope.addressable_of_find? read
  have among : Node.Among context.data (.entry name :: place) node :=
    ⟨name, first, place, rfl, Entries.mem_of_value? there, reached⟩
  have again := Scope.find?_of_addressable there followed addressable
  rw [Origin.dotted, (located _ node among).path]
  exact select_eq_ok_iff.mpr ⟨_, again, rfl⟩

variable {loaded : Context} {place : List Segment} {node : Node}

/-- In a file the path of a place leads to it if and only if it can name each of its segments. -/
theorem select_place_iff {file : String} (given : (ofFile? fs file none).1 = .ok loaded)
    (among : Node.Among loaded.data place node) :
    (loaded.select (".".intercalate (texts place))).1 = .ok node ↔
      ∀ segment ∈ place, segment.Addressable := by
  have distinct : loaded.Distinct := distinct_ofFile? (Prod.ext given rfl)
  have located : loaded.Located fs := located_ofFile? given
  constructor
  · intro selected
    obtain ⟨read, found, same⟩ := select_eq_ok_iff.mp selected
    obtain ⟨first, place', there, reached, -, addressable⟩ := Scope.addressable_of_find? found
    rw [same] at reached
    have again : Node.Among loaded.data (.entry read.name :: place') node :=
      ⟨read.name, first, place', rfl, Entries.mem_of_value? there, reached⟩
    -- Both places are noted in the node, so they read alike.
    have alike := (located _ node among).path.symm.trans (located _ node again).path
    have one := ((Node.among_iff_at {}).mp among).2.toValue
    have other := ((Node.among_iff_at {}).mp again).2.toValue
    rw [Value.Distinct.place_unique distinct one other alike]
    exact addressable
  · intro addressable
    obtain ⟨name, first, rest, rfl, member, reached⟩ := among
    obtain ⟨names, each⟩ := (distinct_iff loaded).mp distinct
    have followed := (each (name, first) member).follow?_of_at reached
      (List.forall_mem_cons.mp addressable).2
    have there := Entries.value?_of_mem names member
    exact select_eq_ok_iff.mpr
      ⟨_, Scope.find?_of_addressable there followed addressable, rfl⟩

end Context

/-- The file has one value at the place of such a node: that of the node. -/
theorem Node.InFile.exact {place : List Segment} {node : Node} (inFile : node.InFile fs place) :
    ∃ file data, node.origin.source = some file ∧ VariablesFile.load fs file = .ok data ∧
      ∀ value, data.At place value ↔ value = node.toValue := by
  obtain ⟨file, loaded, source, given, among⟩ := inFile
  obtain ⟨-, entries, held, rfl⟩ := ofFile?_eq_ok_iff.mp given
  have data := fileEntries_none_eq_ok_iff.mp held
  refine ⟨file, .dict entries, source, data, fun value => ?_⟩
  obtain ⟨-, part, reached, same⟩ := Node.among_ofEntries_iff.mp among
  have here : node.toValue = part := by rw [same, Node.toValue_ofValue]
  rw [here]
  constructor
  · exact fun there => (VariablesFile.distinct_load data).at_unique there reached
  · rintro rfl
    exact reached

end Selecting

namespace Context

/-- Contexts without variables, those made of a dictionary, those loaded from a file or from part of
it, and any of these with another style. -/
inductive Built (fs : FileSystem) : Context → Prop
  | empty {context : Context} (empty : context.data = []) : Built fs context
  | value {value : Value} {context : Context} (built : ofValue? value = .ok context) :
      Built fs context
  | file {path : String} {keys : Option (List String)} {context : Context}
      (loaded : (ofFile? fs path keys).1 = .ok context) : Built fs context
  | styled {context : Context} (style : Style) (built : Built fs context) :
      Built fs (context.withStyle style)

theorem Built.located {fs : FileSystem} {context : Context} (built : context.Built fs) :
    context.Located fs := by
  induction built with
  | empty empty => exact located_of_empty empty
  | value built => exact located_ofValue? built
  | file loaded => exact located_ofFile? loaded
  | styled style built ih => exact ih

/-- Whatever calls bring in variables, and however far each of them comes, every node at every depth
notes the place where it stands. A scalar or list from a file is what the file has there, and a node
that can be selected is selected by its own path. -/
theorem provenance_after (fs : FileSystem) {start : Context} (built : start.Built fs)
    {calls : List MergeCall}
    (given : ∀ other overwrite, .step (.update other overwrite) ∈ calls → other.Built fs) :
    let context := MergeCall.after fs calls start
    (∀ place node, Node.Among context.data place node →
      node.origin.path = texts place ∧
        (node.isDict = false → node.origin.isLocal = false →
          ∃ file data, node.origin.source = some file ∧ VariablesFile.load fs file = .ok data ∧
            ∀ value, data.At place value ↔ value = node.toValue)) ∧
    ∀ key node, (context.select key).1 = .ok node →
      (context.select node.origin.dotted).1 = .ok node := by
  intro context
  have located : context.Located fs := by
    refine MergeCall.located_after (fun other overwrite member => ?_) built.located
    exact (given other overwrite member).located
  refine ⟨fun place node among => ?_, fun key node found => select_dotted located found⟩
  obtain ⟨path, inFile⟩ := located place node among
  exact ⟨path, fun leaf distant => (inFile leaf distant).exact⟩

/-- A file with a list among its variables. -/
def ratesFile : FileSystem :=
  (MemoryFiles.ofListing
    [("rates.json", "\x7b\"net\": \x7b\"rates\": [5, 6]\x7d\x7d")] []).fileSystem

/-- The file is merged; a second item fails on a conflict; then an update overwrites. -/
def ratesCalls : List MergeCall :=
  [.vars [.string "rates.json", .dict [("net", .dict [("depth", .int 3), ("rates", .int 0)])]]
    "" none none,
    .step (.update (ofEntries {} [("net", .dict [("depth", .int 4)])]) true)]

theorem ratesCalls_provenance :
    let start : Context := {}
    let context := MergeCall.after ratesFile ratesCalls start
    start.Built ratesFile ∧
    (∀ other overwrite, .step (.update other overwrite) ∈ ratesCalls → other.Built ratesFile) ∧
    ∃ node, (context.select "net. rates .+1").1 = .ok node ∧
      node.origin = ⟨some "rates.json", ["net", "rates", "1"], false⟩ ∧
      (context.select "net.rates.1").1 = .ok node := by
  intro start context
  have built : start.Built ratesFile := .empty rfl
  have given : ∀ other overwrite, .step (.update other overwrite) ∈ ratesCalls →
      other.Built ratesFile := by
    intro other overwrite member
    have same : MergeCall.step (.update other overwrite) =
        .step (.update (ofEntries {} [("net", .dict [("depth", .int 4)])]) true) := by
      simpa [ratesCalls] using member
    cases same
    exact .value (show ofValue? (.dict [("net", .dict [("depth", .int 4)])]) = _ from rfl)
  obtain ⟨-, selected⟩ := provenance_after ratesFile built given
  have origin : (context.select "net. rates .+1").1.map Node.origin =
      .ok ⟨some "rates.json", ["net", "rates", "1"], false⟩ := by
    decide +kernel
  obtain ⟨node, reached, place⟩ := map_eq_ok_iff.mp origin
  refine ⟨built, given, node, reached, place, ?_⟩
  have again := selected _ node reached
  rw [place] at again
  exact again

end Context

end StageTemplates
