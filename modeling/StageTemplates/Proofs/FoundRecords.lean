import StageTemplates.Proofs.Provenance
import StageTemplates.Proofs.ResolverHistory
import StageTemplates.Proofs.TrackedReads

set_option autoImplicit false

/-!
Where the records of a stage lead. What is recorded for a file is in the file, at the place of which
the recorded path is made; the path leads there if and only if it can name each segment of the
place. Only the key of a member may be one that it cannot name.
-/
namespace StageTemplates

open Context
open Segment (texts)

/-- The file has the value at the place, and the path is that of the place. -/
def RecordPlaced (fs : FileSystem) (file path : String) (value : Value) (place : List Segment) :
    Prop :=
  ∃ loaded node, (ofFile? fs file none).1 = .ok loaded ∧ Node.Among loaded.data place node ∧
    path = ".".intercalate (texts place) ∧ node.toValue = value

section Grounded

variable (fs : FileSystem) (allowed : Segment → Prop)

/-- If the node is from a file and no dictionary, the file has it at the place that it notes, and
all segments of the place are allowed. -/
def Node.Grounded (node : Node) : Prop :=
  node.isDict = false → node.origin.isLocal = false →
    ∃ place, node.origin.path = texts place ∧ node.InFile fs place ∧
      ∀ segment ∈ place, allowed segment

/-- Allowed segments lead to nothing in the node that is not grounded. -/
def Node.Yields (node : Node) : Prop :=
  ∀ place part, node.At place part → (∀ segment ∈ place, allowed segment) →
    part.Grounded fs allowed

/-- A dotted path that begins with a variable leads to nothing that is not grounded. -/
def YieldsGrounded (data : Entries Node) : Prop :=
  ∀ name node, PlainSegment name → Entries.value? name data = some node → node.Yields fs allowed

end Grounded

section

variable {fs : FileSystem} {allowed : Segment → Prop}

namespace Node

theorem Yields.part {node part : Node} {place : List Segment} (yields : node.Yields fs allowed)
    (reached : node.At place part) (all : ∀ segment ∈ place, allowed segment) :
    part.Yields fs allowed := by
  intro further other there rest
  exact yields (place ++ further) other (leads_append reached there)
    (List.forall_mem_append.mpr ⟨all, rest⟩)

theorem yields_ofLocal (value : Value) : (ofLocal value).Yields fs allowed := by
  intro place part reached _ _ distant
  obtain ⟨inner, -, rfl⟩ := at_ofValue_iff.mp reached
  rw [origin_ofValue] at distant
  cases distant

end Node

theorem YieldsGrounded.put {data : Entries Node} {key : String} {node : Node}
    (data' : YieldsGrounded fs allowed data) (one : node.Yields fs allowed) :
    YieldsGrounded fs allowed (Entries.put key node data) := by
  intro name other plain found
  rw [Entries.value?_put] at found
  split at found
  · cases found
    exact one
  · exact data' name other plain found

variable (wide : ∀ segment : Segment, segment.Addressable → allowed segment)
include wide

theorem Context.Located.yieldsGrounded {context : Context} (located : context.Located fs) :
    YieldsGrounded fs allowed context.data := by
  intro name first plain found place part reached all leaf distant
  have among : Node.Among context.data (.entry name :: place) part :=
    ⟨name, first, place, rfl, Entries.mem_of_value? found, reached⟩
  obtain ⟨path, inFile⟩ := located _ part among
  exact ⟨_, path, inFile leaf distant, List.forall_mem_cons.mpr ⟨wide (.entry name) plain, all⟩⟩

theorem Scope.yields_of_find? {data : Entries Node} (yields : YieldsGrounded fs allowed data)
    {key : String} {read : Read} (found : find? data key = some read) :
    read.node.Yields fs allowed := by
  obtain ⟨first, place, there, reached, -, addressable⟩ := addressable_of_find? found
  rw [List.forall_mem_cons] at addressable
  exact (yields read.name first addressable.1 there).part reached
    fun segment member => wide segment (addressable.2 segment member)

theorem Scope.gives_tokenNode_yields {scope : Scope} (yields : YieldsGrounded fs allowed scope.data)
    (inner : List Char) : (scope.tokenNode inner).Gives (Node.Yields fs allowed) := by
  refine Reading.Gives.bind (Reading.gives_any _) fun path _ => ?_
  unfold select
  split
  · next read found => exact fun node same => Except.ok.inj same ▸ yields_of_find? wide yields found
  · exact Reading.gives_fail _

/-- A node that a text stands for is one of the variables; any other is local. -/
theorem Scope.gives_resolveNode_yields {scope : Scope}
    (yields : YieldsGrounded fs allowed scope.data) (value : Value) :
    (scope.resolveNode value).Gives (Node.Yields fs allowed) := by
  have wrapped : Reading.Gives (do let value ← scope.resolve value; return Node.ofLocal value)
      (Node.Yields fs allowed) := by
    refine Reading.Gives.bind (Reading.gives_any _) fun value _ => ?_
    exact Reading.gives_pure (Node.yields_ofLocal value)
  unfold resolveNode
  dsimp only
  split
  · split
    · exact gives_tokenNode_yields wide yields _
    · exact wrapped
  · exact wrapped

variable {data : Entries Node} (yields : YieldsGrounded fs allowed data)
include yields

/-- What an entry records for a file is in the file at some place, under the path of the place. -/
theorem Entry.placed_of_records {entry : Entry} {style : Style} {unchecked : Bool} {stage : Stage}
    (given : entry.outcome data style unchecked = .ok stage) {file path : String} {value : Value}
    (records : stage.tracked.Records file path value) :
    ∃ place, (∀ segment ∈ place, allowed segment) ∧ RecordPlaced fs file path value place := by
  unfold outcome at given
  dsimp only at given
  split at given
  · cases given
  · cases given
    rcases Tracked.read_of_records records with ⟨values, listed, -⟩ | ⟨read, member, reported⟩
    · cases listed
    · obtain ⟨distant, reported, same⟩ := reported
      obtain ⟨leaf, source, rfl⟩ := Node.of_report? reported
      obtain ⟨key, found⟩ := finds_readFields read member
      obtain ⟨place, noted, ⟨named, loaded, source', opened, among⟩, all⟩ :=
        Scope.yields_of_find? wide yields found [] read.node rfl (by simp) leaf distant
      rw [source] at source'
      cases source'
      refine ⟨place, all, loaded, read.node, opened, among, ?_, same⟩
      rw [Origin.dotted, noted]

theorem Foreach.yields_membersIn {template : Foreach} {style : Style} {members : Node}
    (given : template.membersIn data style = .ok members) : members.Yields fs allowed := by
  unfold membersIn at given
  split at given
  · cases given
  · next node resolved =>
      split at given
      · cases given
        exact Scope.gives_resolveNode_yields wide yields _ _ resolved
      · cases given

omit wide in
theorem Foreach.yieldsGrounded_bindings {members member : Node} (key : String)
    (one : member.Yields fs allowed) :
    YieldsGrounded fs allowed (Entries.putAll data (bindings members key member)) := by
  unfold bindings
  rw [Entries.putAll_cons]
  split
  · exact (yields.put one).put (Node.yields_ofLocal _)
  · exact yields.put one

end

namespace Foreach

/-- The segments that may lead to the member under a key. -/
def MemberSegment (members : Node) (key : String) (segment : Segment) : Prop :=
  match members with
  | .dict _ _ => segment = .entry key
  | .list items _ => ∃ index < items.length, segment = .item index
  | .scalar _ _ => False

/-- A member is the entry under its key, or some item of the list. -/
theorem holds_of_keyed {members member : Node} {key : String}
    (found : Entries.value? key (keyed members) = some member) :
    ∃ segment, members.Holds segment member ∧ MemberSegment members key segment := by
  cases members with
  | scalar value origin => cases found
  | dict entries origin => exact ⟨.entry key, Entries.mem_of_value? found, rfl⟩
  | list items origin =>
      have within : ∀ entry ∈ keyed (.list items origin), entry.2 ∈ items := by
        unfold keyed
        dsimp only
        split
        · refine Entries.forall_ofList fun entry listed => ?_
          obtain ⟨index, small, rfl⟩ := List.mem_mapIdx.mp listed
          exact List.getElem_mem small
        · refine Entries.forall_ofList fun entry listed => ?_
          obtain ⟨item, inside, rfl⟩ := List.mem_map.mp listed
          exact inside
      obtain ⟨index, small, there⟩ :=
        List.getElem_of_mem (within _ (Entries.mem_of_value? found))
      exact ⟨.item index, List.getElem?_eq_some_iff.mpr ⟨small, there⟩, index, small, rfl⟩

/-- Of the segments on the way to what the stage of a member records, a dotted path can name all but
perhaps the one that leads to the member. -/
theorem placed_of_namedIn {fs : FileSystem} {context : Context} (located : context.Located fs)
    {template : Foreach} {style : Style} {key name : String} {stage : Stage}
    (given : template.namedIn context.data style key name = .ok stage)
    {file path : String} {value : Value} (records : stage.tracked.Records file path value) :
    ∃ members segment place, template.membersIn context.data style = .ok members ∧
      MemberSegment members key segment ∧ RecordPlaced fs file path value place ∧
      ∀ other ∈ place, other.Addressable ∨ other = segment := by
  obtain ⟨members, reached, -, given⟩ := namedIn_eq_ok given
  obtain ⟨member, there, resolved⟩ := stageOf_eq_ok given
  obtain ⟨segment, held, kind⟩ := holds_of_keyed there
  have wide : ∀ other : Segment, other.Addressable → other.Addressable ∨ other = segment :=
    fun _ => Or.inl
  have yields := located.yieldsGrounded wide
  have below : members.At [segment] member := ⟨member, held, rfl⟩
  have one : member.Yields fs fun other => other.Addressable ∨ other = segment :=
    (yields_membersIn wide yields reached).part below
      (List.forall_mem_singleton.mpr (Or.inr rfl))
  obtain ⟨place, all, placed⟩ := Entry.placed_of_records wide
    (yieldsGrounded_bindings yields key one) resolved records
  exact ⟨members, segment, place, reached, kind, placed, all⟩

end Foreach

namespace Resolver

/-- Whether a dotted path can name the member that a stage is for, if it is for one: the key has no
dot in it and no white space around it, or the members are those of a list that is not too long to
number. -/
def namesMember (resolver : Resolver) (name : String) : Bool :=
  match Entries.value? (splitName name).1 resolver.definitions, (splitName name).2 with
  | some (.foreach template), some key =>
      match template.membersIn resolver.context.data resolver.context.style with
      | .ok (.dict _ _) => PlainSegment key
      | .ok (.list items _) => items.length ≤ Nat.pow 2 64
      | _ => true
  | _, _ => true

theorem addressable_of_namesMember {resolver : Resolver} {name key : String} {template : Foreach}
    (found : Entries.value? (splitName name).1 resolver.definitions = some (.foreach template))
    (named : (splitName name).2 = some key) {members : Node}
    (reached : template.membersIn resolver.context.data resolver.context.style = .ok members)
    (names : resolver.namesMember name = true) {segment : Segment}
    (kind : Foreach.MemberSegment members key segment) : segment.Addressable := by
  unfold namesMember at names
  rw [found, named] at names
  dsimp only at names
  rw [reached] at names
  cases members with
  | scalar value origin => exact kind.elim
  | dict entries origin =>
      cases kind
      exact (of_decide_eq_true names : PlainSegment key)
  | list items origin =>
      obtain ⟨index, small, rfl⟩ := kind
      exact lt_of_lt_of_le small (of_decide_eq_true names)

theorem located_ofDocument? {fs : FileSystem} {current : Option String} {wdir : String}
    {document : Value} {style : Style} {resolver : Resolver} {reads : List String}
    (built : ofDocument? fs current wdir document style = (.ok resolver, reads)) :
    resolver.context.Located fs := by
  unfold ofDocument? at built
  dsimp only at built
  split at built
  · cases built
  · split at built
    · cases built
    · next items _ =>
        have start : ({ style } : Context).Located fs := located_of_empty rfl
        have loaded : (MergeCall.run fs { style } (.vars items (relativeFolder wdir current) none
            standardVariables)).context.Located fs :=
          MergeCall.located_run start fun other overwrite same => by cases same
        split at built
        · cases built
        · split at built
          · cases built
          · cases built
            exact loaded

/-- Of the segments on the way to what a stage records, a dotted path can name all but perhaps the
one that leads to a member. -/
theorem placed_of_stageIn {fs : FileSystem} {resolver : Resolver}
    (located : resolver.context.Located fs) {name : String} {stage : Stage}
    (given : stageIn resolver.definitions resolver.context name = .ok stage)
    {file path : String} {value : Value} (records : stage.tracked.Records file path value) :
    ∃ place, RecordPlaced fs file path value place ∧
      (resolver.namesMember name = true → ∀ segment ∈ place, segment.Addressable) := by
  unfold stageIn at given
  split at given
  · next entry found plain =>
      have resolved := Foreach.ok_of_mapError_ok given
      unfold Entry.checkedOutcome at resolved
      split at resolved
      · cases resolved
      · obtain ⟨place, all, placed⟩ := Entry.placed_of_records (fun _ => id)
          (located.yieldsGrounded fun _ => id) resolved records
        exact ⟨place, placed, fun _ => all⟩
  · next template key found named =>
      obtain ⟨members, segment, place, reached, kind, placed, all⟩ :=
        Foreach.placed_of_namedIn located given records
      refine ⟨place, placed, fun names other within => (all other within).elim id ?_⟩
      rintro rfl
      exact addressable_of_namesMember found named reached names kind
  · cases given

/-- After any queries, what is recorded for a stage resolved is in the file that is named, loaded
whole: it stands at a place of which the path is made. The path leads there if and only if it can
name each segment of the place, and it can for every stage but those of members under keys that it
cannot name. -/
theorem record_found_iff {fs : FileSystem} {current : Option String} {wdir : String}
    {document : Value} {style : Style} {resolver : Resolver} {reads : List String}
    (built : ofDocument? fs current wdir document style = (.ok resolver, reads))
    (distinct : document.Distinct) (history : List Query) {name : String} {stage : Stage}
    (resolved : ((resolver.askAll history).resolveOne name).1 = .ok stage)
    {file path : String} {value : Value} (records : stage.tracked.Records file path value) :
    ∃ loaded place node, (ofFile? fs file none).1 = .ok loaded ∧
      Node.Among loaded.data place node ∧ path = ".".intercalate (texts place) ∧
      node.toValue = value ∧
      ((loaded.select path).1 = .ok node ↔ ∀ segment ∈ place, segment.Addressable) ∧
      (resolver.namesMember name = true → (loaded.select path).1 = .ok node) := by
  have settled := (fresh_ofDocument? built distinct).settled
  have kept := askAll_kept settled history
  have given : stageIn resolver.definitions resolver.context name = .ok stage := by
    rw [← kept.stageIn, ← (resolveOne_served kept.settled name).answer]
    exact resolved
  obtain ⟨place, ⟨loaded, node, opened, among, rfl, same⟩, named⟩ :=
    placed_of_stageIn (located_ofDocument? built) given records
  have leads := select_place_iff opened among
  exact ⟨loaded, place, node, opened, among, rfl, same, leads, fun names => leads.mpr (named names)⟩

/-- A file in which a dotted path and a key with a dot read alike. -/
def modelsFile : FileSystem :=
  (MemoryFiles.ofListing
    [("models.json",
      "\x7b\"models\": \x7b\"x.y\": 1, \"x\": \x7b\"y\": 2\x7d, \"z\": 3\x7d\x7d")] []).fileSystem

/-- Stages for the members of the file's dictionary. -/
def modelsDocument : Value :=
  .dict [("vars", .list [.string "models.json"]),
    ("stages", .dict [("train", .dict [("foreach", .string "${models}"),
      ("do", .dict [("cmd", .string "${item}")])])])]

theorem modelsDocument_record_found :
    ∃ resolver reads stage loaded node,
      ofDocument? modelsFile (some "/") "" modelsDocument {} = (.ok resolver, reads) ∧
      modelsDocument.Distinct ∧ ((resolver.askAll []).resolveOne "train@z").1 = .ok stage ∧
      stage.tracked.Records "models.json" "models.z" node.toValue ∧
      (ofFile? modelsFile "models.json" none).1 = .ok loaded ∧
      (loaded.select "models.z").1 = .ok node := by
  have resolves : ((ofDocument? modelsFile (some "/") "" modelsDocument {}).1.map fun resolver =>
      (resolver.namesMember "train@z", (resolver.resolveOne "train@z").1.map fun stage =>
        (stage.tracked.value? "models.json" "models.z").map Value.text)) =
          .ok (true, .ok (some "3")) := by
    decide +kernel
  obtain ⟨resolver, built, answers⟩ := map_eq_ok_iff.mp resolves
  obtain ⟨names, answer⟩ := Prod.mk.inj answers
  obtain ⟨stage, resolved, record⟩ := map_eq_ok_iff.mp answer
  obtain ⟨value, found, -⟩ := Option.map_eq_some_iff.mp record
  have distinct : modelsDocument.Distinct := by decide
  have records := Tracked.records_of_value? found
  obtain ⟨loaded, -, node, opened, -, -, rfl, -, leads⟩ :=
    record_found_iff (Prod.ext built rfl) distinct [] resolved records
  exact ⟨resolver, _, stage, loaded, node, Prod.ext built rfl, distinct, resolved, records, opened,
    leads names⟩

/-- The path recorded for the member with a dot in its key leads to another value. -/
theorem not_every_record_found :
    ¬ ∀ (fs : FileSystem) (current : Option String) (wdir : String) (document : Value)
        (style : Style) (resolver : Resolver) (reads : List String),
      ofDocument? fs current wdir document style = (.ok resolver, reads) → document.Distinct →
      ∀ (history : List Query) (name : String) (stage : Stage),
        ((resolver.askAll history).resolveOne name).1 = .ok stage →
        ∀ (file path : String) (value : Value), stage.tracked.Records file path value →
          ∃ loaded node, (ofFile? fs file none).1 = .ok loaded ∧
            (loaded.select path).1 = .ok node ∧ node.toValue = value := by
  intro claimed
  have resolves : ((ofDocument? modelsFile (some "/") "" modelsDocument {}).1.map fun resolver =>
      (resolver.resolveOne "train@x.y").1.map fun stage =>
        (stage.tracked.value? "models.json" "models.x.y").map Value.text) =
          .ok (.ok (some "1")) := by
    decide +kernel
  have selects : ((ofFile? modelsFile "models.json" none).1.map fun loaded =>
      (loaded.select "models.x.y").1.map fun node => node.toValue.text) = .ok (.ok "2") := by
    decide +kernel
  obtain ⟨resolver, built, answer⟩ := map_eq_ok_iff.mp resolves
  obtain ⟨stage, resolved, record⟩ := map_eq_ok_iff.mp answer
  obtain ⟨value, found, written⟩ := Option.map_eq_some_iff.mp record
  obtain ⟨loaded, node, opened, selected, same⟩ :=
    claimed modelsFile (some "/") "" modelsDocument {} resolver _ (Prod.ext built rfl) (by decide)
      [] "train@x.y" stage resolved "models.json" "models.x.y" value
      (Tracked.records_of_value? found)
  rw [opened, Except.map, Except.ok.injEq, selected, Except.map, Except.ok.injEq, same,
    written] at selects
  exact absurd selects (by decide)

end Resolver

end StageTemplates
