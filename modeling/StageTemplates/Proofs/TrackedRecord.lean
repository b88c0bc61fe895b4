import StageTemplates.Proofs.Provenance
import StageTemplates.Proofs.SelectedWords
import StageTemplates.Proofs.TokenReads

set_option autoImplicit false

/-!
What the record of a stage holds: the names that its tokens begin with, and for each file the paths
of what the tokens selected from it, all in the order in which they were first read.
-/
namespace StageTemplates

namespace KeyPath

/-- The variable that a token begins with. -/
def firstSegment (token : String) : String := Text.trim (String.ofList (word token.toList))

theorem Spells.eq_word_cons {words : List (List Char)} {text : List Char}
    (spelled : Spells words text) : ∃ others, words = word text :: others := by
  cases spelled with
  | @path first rest others isWord steps =>
      refine ⟨others, ?_⟩
      rw [word_append isWord, steps.word_eq_nil, List.append_nil]

/-- What is read for a key path is read under the name that the path begins with. -/
theorem name_of_find? {token path : String} {data : Entries Node} {read : Read}
    (parsed : parse token = .ok path) (found : Scope.find? data path = some read) :
    read.name = firstSegment token := by
  obtain ⟨words, spelled, rfl⟩ := parse_eq_ok_iff.mp parsed
  have plain : ∀ word ∈ words, '.' ∉ word := fun word member => (spelled.isWord word member).2.1
  obtain ⟨others, rfl⟩ := spelled.eq_word_cons
  rw [Scope.find?_dotted data plain, Option.map_eq_some_iff] at found
  obtain ⟨node, -, rfl⟩ := found
  rfl

end KeyPath

namespace Node

/-- What a node reports as read: the file that it is from and its path there, unless it is local. -/
def reported? (node : Node) : Option (String × String) :=
  if node.origin.isLocal then none else node.report?

/-- What nodes report, in turn. -/
def reports (nodes : List Node) : List (String × String) := nodes.filterMap reported?

/-- A node that reports is no local one and no dictionary, and has a source. -/
theorem reported?_eq_some_iff {node : Node} {file path : String} :
    node.reported? = some (file, path) ↔
      node.origin.isLocal = false ∧ node.isDict = false ∧ node.origin.source = some file ∧
        path = node.origin.dotted := by
  unfold reported?
  cases local' : node.origin.isLocal with
  | true => simp
  | false =>
      cases node <;> simp [report?, isDict, origin, eq_comm] 

end Node

namespace Tracked

theorem addKey_eraseDups (key : String) (names : List String) :
    addKey key names.eraseDups = (names ++ [key]).eraseDups := by
  simp [addKey, Entries.eraseDups_concat]

/-- A record of reads under the names, which led to the nodes. Names, files and paths are held in
the order of their first occurrence; a path has the value of the last node that reports it. -/
structure RecordOf (names : List String) (nodes : List Node) (tracked : Tracked) : Prop where
  keys : tracked.keys = names.eraseDups
  files : Entries.keys tracked.sources = ((Node.reports nodes).map Prod.fst).eraseDups
  paths : ∀ file, Entries.keys ((Entries.value? file tracked.sources).getD []) =
    (((Node.reports nodes).filter fun report => report.1 = file).map Prod.snd).eraseDups
  values : ∀ file path, tracked.value? file path =
    (nodes.filter fun node => node.reported? = some (file, path)).getLast?.map Node.toValue

theorem recordOf_nil : RecordOf [] [] {} := ⟨rfl, rfl, fun _ => rfl, fun _ _ => rfl⟩

section Record

variable {tracked : Tracked} {read : Read}

theorem record_of_silent (silent : read.node.reported? = none) :
    tracked.record read = { tracked with keys := addKey read.name tracked.keys } := by
  unfold Node.reported? at silent
  unfold record
  dsimp only
  split
  · rfl
  · next distant =>
      rw [if_neg distant] at silent
      rw [silent]

theorem record_of_reported {file path : String}
    (reported : read.node.reported? = some (file, path)) :
    tracked.record read =
      ⟨addKey read.name tracked.keys,
        Entries.put file (Entries.put path read.node.toValue
          ((Entries.value? file tracked.sources).getD [])) tracked.sources⟩ := by
  unfold Node.reported? at reported
  split at reported
  · cases reported
  · next distant =>
      unfold record
      dsimp only
      rw [if_neg distant, reported]

/-- Noting a value at a path of a file changes no other path. -/
theorem value?_record {file path : String} (reported : read.node.reported? = some (file, path))
    (other way : String) :
    (tracked.record read).value? other way =
      if other = file ∧ way = path then some read.node.toValue else tracked.value? other way := by
  rw [record_of_reported reported, value?, value?, Entries.value?_put]
  by_cases same : other = file
  · subst same
    rw [if_pos rfl, Option.bind_some, Entries.value?_put]
    by_cases alike : way = path
    · simp [alike]
    · cases found : Entries.value? other tracked.sources <;> simp [alike]
  · simp [same]

variable {names : List String} {nodes : List Node}

theorem RecordOf.record (holds : RecordOf names nodes tracked) (read : Read) :
    RecordOf (names ++ [read.name]) (nodes ++ [read.node]) (tracked.record read) := by
  have keys : (tracked.record read).keys = (names ++ [read.name]).eraseDups := by
    rw [keys_record, holds.keys, addKey_eraseDups]
  cases reported : read.node.reported? with
  | none =>
      have same : Node.reports (nodes ++ [read.node]) = Node.reports nodes := by
        simp [Node.reports, reported]
      rw [record_of_silent reported] at keys ⊢
      refine ⟨keys, same ▸ holds.files, fun file => same ▸ holds.paths file, fun file path => ?_⟩
      have values := holds.values file path
      rw [List.filter_append, List.filter_cons_of_neg (by simp [reported]), List.filter_nil,
        List.append_nil]
      exact values
  | some report =>
      obtain ⟨file, path⟩ := report
      have more : Node.reports (nodes ++ [read.node]) = Node.reports nodes ++ [(file, path)] := by
        simp [Node.reports, reported]
      refine ⟨keys, ?_, fun other => ?_, fun other way => ?_⟩
      · rw [record_of_reported reported, Entries.keys_put_of_eraseDups holds.files, more,
          List.map_append]
        rfl
      · rw [record_of_reported reported, Entries.value?_put, more]
        by_cases same : other = file
        · subst same
          rw [if_pos rfl, Option.getD_some, Entries.keys_put_of_eraseDups (holds.paths other)]
          simp
        · rw [if_neg same, holds.paths]
          simp [Ne.symm same]
      · rw [value?_record reported, holds.values, List.filter_append]
        by_cases same : other = file ∧ way = path
        · obtain ⟨rfl, rfl⟩ := same
          simp [reported]
        · have apart : ¬ (file = other ∧ path = way) := fun both => same ⟨both.1.symm, both.2.symm⟩
          simp [reported, same, apart]

/-- Recording reads one after the other keeps the record to what was read. -/
theorem RecordOf.recordAll (holds : RecordOf names nodes tracked) (reads : List Read) :
    RecordOf (names ++ reads.map Read.name) (nodes ++ reads.map Read.node)
      (tracked.recordAll reads) := by
  induction reads generalizing names nodes tracked with
  | nil => simpa using holds
  | cons read rest ih =>
      have later := ih (holds.record read)
      rwa [List.append_assoc, List.append_assoc] at later

end Record

end Tracked

namespace Entry

/-- The tokens of all fields. -/
def tokens (entry : Entry) : List String := entry.fields.flatMap fun field => field.2.tokens

/-- Fields that all succeed are read token by token. -/
theorem readFields_reads {data : Entries Node} {style : Style} {unchecked : Bool}
    {fields : List (String × Value)} {values : Entries Value}
    (success : (readFields data style unchecked fields).outcome = .ok values) :
    List.Forall₂ (ReadFor data unchecked) (fields.flatMap fun field => field.2.tokens)
      (readFields data style unchecked fields).reads := by
  induction fields generalizing values with
  | nil => exact List.Forall₂.nil
  | cons field rest ih =>
      obtain ⟨key, value⟩ := field
      have here := (⟨data, style, some key, unchecked⟩ : Scope).follows_resolve value
      unfold Reading.Follows at here
      rw [readFields] at success ⊢
      dsimp only at success ⊢
      cases outcome : ((⟨data, style, some key, unchecked⟩ : Scope).resolve value).outcome with
      | error error =>
          rw [outcome] at success
          cases success
      | ok resolved =>
          rw [outcome] at here success
          obtain ⟨others, later, -⟩ := map_eq_ok_iff.mp success
          exact List.rel_append here (ih later)

end Entry

namespace Context

/-- The token is a key path that selects the node. -/
def Selects (context : Context) (token : String) (node : Node) : Prop :=
  ∃ path, KeyPath.parse token = .ok path ∧ (context.select path).1 = .ok node

theorem selects_of_readFor {context : Context} {token : String} {read : Read}
    (given : ReadFor context.data false token read) :
    context.Selects token read.node ∧ KeyPath.firstSegment token = read.name := by
  obtain ⟨path, parsed, found⟩ := given
  have whole : KeyPath.parse token = .ok path := by
    rwa [keyPath, String.ofList_toList] at parsed
  exact ⟨⟨path, whole, select_eq_ok_iff.mpr ⟨read, found, rfl⟩⟩,
    (KeyPath.name_of_find? whole found).symm⟩

theorem selects_of_mem {context : Context} {tokens : List String} {nodes : List Node}
    (each : List.Forall₂ context.Selects tokens nodes) {node : Node} (member : node ∈ nodes) :
    ∃ token, context.Selects token node := by
  induction each with
  | nil => cases member
  | cons here _ ih =>
      rcases List.mem_cons.mp member with rfl | later
      · exact ⟨_, here⟩
      · exact ih later

/-- Where every node notes its place, nodes that report the same path are the same node. -/
theorem Located.eq_of_reported {fs : FileSystem} {context : Context} (located : context.Located fs)
    {token other : String} {one two : Node} (first : context.Selects token one)
    (second : context.Selects other two) {file path : String}
    (here : one.reported? = some (file, path)) (there : two.reported? = some (file, path)) :
    one = two := by
  obtain ⟨_, -, found⟩ := first
  obtain ⟨_, -, found'⟩ := second
  obtain ⟨-, -, -, rfl⟩ := Node.reported?_eq_some_iff.mp here
  obtain ⟨-, -, -, same⟩ := Node.reported?_eq_some_iff.mp there
  have again := select_dotted located found
  rw [same, select_dotted located found'] at again
  exact (Except.ok.inj again).symm

end Context

namespace Entry

variable {entry : Entry} {context : Context} {stage : Stage}

theorem recordOf_of_resolve (success : (entry.resolve context).1 = .ok stage) :
    ∃ nodes, List.Forall₂ context.Selects entry.tokens nodes ∧
      Tracked.RecordOf (entry.tokens.map KeyPath.firstSegment) nodes stage.tracked := by
  rw [resolve_eq, checkedOutcome] at success
  split at success
  · cases success
  · unfold outcome at success
    dsimp only at success
    split at success
    · cases success
    · next values given =>
        cases success
        have each := (readFields_reads given).imp fun token read => Context.selects_of_readFor
        generalize (readFields context.data context.style false entry.fields).reads = reads at each
        have selected : List.Forall₂ context.Selects entry.tokens (reads.map Read.node) :=
          List.forall₂_map_right_iff.mpr (each.imp fun _ _ given => given.1)
        have named : entry.tokens.map KeyPath.firstSegment = reads.map Read.name := by
          rw [← List.forall₂_eq_eq_eq, List.forall₂_map_left_iff, List.forall₂_map_right_iff]
          exact each.imp fun _ _ given => given.2
        rw [named]
        exact ⟨_, selected, Tracked.recordOf_nil.recordAll reads⟩

/-- The record of a stage is made of its tokens, in the order in which they stand: the names that
they begin with, and what they select that is from a file, no dictionary and not local, under its
file and path. If the variables were brought in by loading and merging, what is noted under a path
is the value of every token that selects it. -/
theorem tracked_of_tokens (success : (entry.resolve context).1 = .ok stage) :
    ∃ nodes, List.Forall₂ context.Selects entry.tokens nodes ∧
      Tracked.RecordOf (entry.tokens.map KeyPath.firstSegment) nodes stage.tracked ∧
      ∀ (fs : FileSystem) (start : Context) (calls : List MergeCall), start.Built fs →
        (∀ other overwrite, .step (.update other overwrite) ∈ calls → other.Built fs) →
        context.data = (MergeCall.after fs calls start).data →
        ∀ node ∈ nodes, ∀ file path, node.reported? = some (file, path) →
          stage.tracked.value? file path = some node.toValue := by
  obtain ⟨nodes, each, holds⟩ := recordOf_of_resolve success
  refine ⟨nodes, each, holds, fun fs start calls built given same node member file path here => ?_⟩
  have located : context.Located fs := by
    have after := MergeCall.located_after (fun other overwrite listed =>
      (given other overwrite listed).located) built.located
    unfold Context.Located at after ⊢
    rwa [same]
  have present : node ∈ nodes.filter fun node => node.reported? = some (file, path) := by
    simp [member, here]
  rw [holds.values]
  cases last : (nodes.filter fun node => node.reported? = some (file, path)).getLast? with
  | none =>
      rw [List.getLast?_eq_none_iff] at last
      rw [last] at present
      cases present
  | some latest =>
      have there := List.mem_of_getLast? last
      rw [List.mem_filter, decide_eq_true_eq] at there
      obtain ⟨_, first⟩ := Context.selects_of_mem each member
      obtain ⟨_, second⟩ := Context.selects_of_mem each there.1
      rw [located.eq_of_reported first second here there.2]
      rfl

/-- The variables of a run. -/
def runFile : FileSystem :=
  (MemoryFiles.ofListing
    [("params.json", "\x7b\"net\": \x7b\"rates\": [5, 6]\x7d, \"seed\": 1\x7d")] []).fileSystem

/-- The file is merged, then a local variable. -/
def runCalls : List MergeCall :=
  [.vars [.string "params.json", .dict [("lr", .int 1)]] "" none none]

/-- One rate is read twice, spelled differently; a key reads the local variable, and what it names a
dictionary. -/
def runEntry : Entry :=
  { name := "run", path := "dvc.yaml"
    fields := [
      ("cmd", .string "train $\x7bseed\x7d $\x7bnet.rates[1]\x7d $\x7b net . rates . +1 \x7d"),
      ("params", .list [.dict [("$\x7blr\x7d", .string "$\x7bnet\x7d")],
        .string "$\x7bnet.rates\x7d", .string "$\x7bseed\x7d"])] }

theorem runEntry_tracked :
    let start : Context := {}
    let context := MergeCall.after runFile runCalls start
    start.Built runFile ∧
    (∀ other overwrite, .step (.update other overwrite) ∈ runCalls → other.Built runFile) ∧
    ∃ stage nodes, (runEntry.resolve context).1 = .ok stage ∧
      List.Forall₂ context.Selects runEntry.tokens nodes ∧
      stage.tracked.keys = ["seed", "net", "lr"] ∧
      stage.tracked.sources.map (fun source => (source.1, Entries.keys source.2)) =
        [("params.json", ["seed", "net.rates.1", "net.rates"])] ∧
      ∀ node ∈ nodes, ∀ file path, node.reported? = some (file, path) →
        stage.tracked.value? file path = some node.toValue := by
  intro start context
  have built : start.Built runFile := .empty rfl
  have given : ∀ other overwrite, .step (.update other overwrite) ∈ runCalls →
      other.Built runFile := by
    intro other overwrite member
    simp [runCalls] at member
  have sources : (runEntry.resolve context).1.map (fun stage =>
      stage.tracked.sources.map fun source => (source.1, Entries.keys source.2)) =
      .ok [("params.json", ["seed", "net.rates.1", "net.rates"])] := by
    decide +kernel
  obtain ⟨stage, success, paths⟩ := map_eq_ok_iff.mp sources
  obtain ⟨nodes, each, holds, values⟩ := tracked_of_tokens success
  refine ⟨built, given, stage, nodes, success, each, ?_, paths,
    values runFile start runCalls built given rfl⟩
  rw [holds.keys]
  decide +kernel

end Entry

end StageTemplates
