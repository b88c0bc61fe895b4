import StageTemplates.Proofs.DottedPaths
import StageTemplates.Proofs.KeyPathGrammar
import StageTemplates.Proofs.TrackedReads
import StageTemplates.Text.Cut

set_option autoImplicit false

/-!
What a key path selects: its words are looked up one below the other, without the white space around
them.
-/
namespace StageTemplates

namespace Text

theorem splitOn_eq_cutFirst (separator : Char) (text : List Char) :
    text.splitOn separator =
      match cutFirst separator text with
      | none => [text]
      | some (before, after) => before :: after.splitOn separator := by
  induction text with
  | nil => simp [cutFirst]
  | cons c rest ih =>
      rw [List.splitOn_cons_eq_if_modifyHead, cutFirst]
      by_cases same : c = separator
      · simp [same]
      · rw [ih]
        cases cutFirst separator rest <;> simp [same]

end Text

/-- A dotted path is its first segment, and the segments of what stands behind the first point. -/
theorem pathSegments_eq_cutFirst (key : String) :
    pathSegments key =
      match Text.cutFirst '.' key.toList with
      | none => [Text.trim key]
      | some (segment, rest) =>
          Text.trim (String.ofList segment) :: pathSegments (String.ofList rest) := by
  rw [pathSegments, Text.splitOn_eq_cutFirst]
  cases Text.cutFirst '.' key.toList with
  | none => simp
  | some cut => simp [pathSegments]

namespace Node

/-- A path is followed segment by segment, each cut off at the next point. -/
theorem select?_eq_cutFirst (key : String) (node : Node) :
    node.select? key =
      match Text.cutFirst '.' key.toList with
      | none => node.child? (Text.trim key)
      | some (segment, rest) =>
          (node.child? (Text.trim (String.ofList segment))).bind
            (select? (String.ofList rest)) := by
  rw [select?, pathSegments_eq_cutFirst]
  cases Text.cutFirst '.' key.toList with
  | none => simp [follow?]
  | some cut => rfl

end Node

/-- The name is cut off a path before the rest is followed below what the name stands for. -/
theorem Scope.find?_eq_cutFirst (data : Entries Node) (key : String) :
    find? data key =
      match Text.cutFirst '.' key.toList with
      | none => (Entries.value? (Text.trim key) data).map (⟨Text.trim key, ·⟩)
      | some (name, rest) =>
          ((Entries.value? (Text.trim (String.ofList name)) data).bind
            (Node.select? (String.ofList rest))).map (⟨Text.trim (String.ofList name), ·⟩) := by
  rw [find?, pathSegments_eq_cutFirst]
  cases Text.cutFirst '.' key.toList with
  | none =>
      dsimp only
      cases Entries.value? (Text.trim key) data <;> rfl
  | some cut =>
      dsimp only
      cases Entries.value? (Text.trim (String.ofList cut.1)) data <;> rfl

namespace Node

/-- What the words lead to below a node, each looked up in what the ones before it led to. -/
def walk? (words : List (List Char)) (top : Node) : Option Node :=
  words.foldlM (fun node word => node.child? (Text.trim (String.ofList word))) top

end Node

section Words

variable {first : List Char} {others : List (List Char)}

theorem cutFirst_dotted_cons (plain : '.' ∉ first) (next : List Char) (rest : List (List Char)) :
    Text.cutFirst '.' (KeyPath.dotted (first :: next :: rest)).toList =
      some (first, (KeyPath.dotted (next :: rest)).toList) := by
  rw [KeyPath.toList_dotted, KeyPath.toList_dotted, List.flatMap_cons, List.cons_append]
  exact Text.cutFirst_append plain _

theorem cutFirst_dotted_singleton (plain : '.' ∉ first) :
    Text.cutFirst '.' (KeyPath.dotted [first]).toList = none := by
  rw [KeyPath.toList_dotted, List.flatMap_nil, List.append_nil]
  exact Text.cutFirst_eq_none plain

theorem dotted_singleton (found : List Char) : KeyPath.dotted [found] = String.ofList found := by
  rw [← String.toList_inj, KeyPath.toList_dotted, String.toList_ofList, List.flatMap_nil,
    List.append_nil]

/-- Words joined by points are looked up one below the other. -/
theorem Node.select?_dotted (plain : ∀ word ∈ first :: others, '.' ∉ word) (node : Node) :
    node.select? (KeyPath.dotted (first :: others)) = node.walk? (first :: others) := by
  induction others generalizing first node with
  | nil =>
      have plainFirst := plain first List.mem_cons_self
      rw [select?_eq_cutFirst, cutFirst_dotted_singleton plainFirst, dotted_singleton]
      simp [walk?]
  | cons next rest ih =>
      have plainFirst := plain first List.mem_cons_self
      rw [select?_eq_cutFirst, cutFirst_dotted_cons plainFirst]
      dsimp only
      rw [String.ofList_toList, walk?, List.foldlM_cons]
      refine Option.bind_congr fun child _ => ?_
      exact ih (fun word member => plain word (List.mem_cons_of_mem _ member)) child

theorem Scope.find?_dotted (data : Entries Node) (plain : ∀ word ∈ first :: others, '.' ∉ word) :
    find? data (KeyPath.dotted (first :: others)) =
      ((Entries.value? (Text.trim (String.ofList first)) data).bind (Node.walk? others)).map
        (⟨Text.trim (String.ofList first), ·⟩) := by
  have plainFirst := plain first List.mem_cons_self
  rw [find?_eq_cutFirst]
  cases others with
  | nil =>
      have here : Node.walk? [] = some := rfl
      rw [cutFirst_dotted_singleton plainFirst, dotted_singleton, here, Option.bind_fun_some]
  | cons next rest =>
      have below : Node.select? (KeyPath.dotted (next :: rest)) = Node.walk? (next :: rest) :=
        funext (Node.select?_dotted fun word member => plain word (List.mem_cons_of_mem _ member))
      rw [cutFirst_dotted_cons plainFirst]
      dsimp only
      rw [String.ofList_toList, below]

end Words

namespace Context

theorem select_of_find? {context : Context} {key : String} {read : Read}
    (found : Scope.find? context.data key = some read) :
    context.select key = (.ok read.node, context.recorded [read]) := by
  rw [select, Scope.select, found]
  rfl

theorem select_of_not_find? {context : Context} {key : String}
    (absent : Scope.find? context.data key = none) :
    context.select key = (.error (.keyNotInContext key), context) := by
  rw [select, Scope.select, absent, noted]
  exact congrArg (Prod.mk _) context.recorded_nil

/-- The words of a key path, however it is spelled, are looked up one below the other without the
white space around them, the first among the variables. What they lead to is selected and its name
recorded; if they lead to nothing, the path is reported and nothing is recorded. -/
theorem select_words {expression path : String} (parsed : KeyPath.parse expression = .ok path) :
    ∃ first others, KeyPath.Spells (first :: others) expression.toList ∧
      path = KeyPath.dotted (first :: others) ∧
      ∀ context : Context,
        let name := Text.trim (String.ofList first)
        let found := (context.get? name).bind (Node.walk? others)
        (∀ node, (context.select path).1 = .ok node ↔ found = some node) ∧
        (∀ node, found = some node →
          context.select path = (.ok node, context.recorded [⟨name, node⟩]) ∧
          ∀ tracked, context.tracked = some tracked →
            ∃ after, (context.select path).2.tracked = some after ∧
              after.keys =
                if name ∈ tracked.keys then tracked.keys else tracked.keys ++ [name]) ∧
        (found = none → context.select path = (.error (.keyNotInContext path), context)) := by
  obtain ⟨words, spelled, rfl⟩ := KeyPath.parse_eq_ok_iff.mp parsed
  have plain : ∀ word ∈ words, '.' ∉ word := fun word member => (spelled.isWord word member).2.1
  obtain ⟨first, others, rfl⟩ := spelled.exists_cons
  refine ⟨first, others, spelled, rfl, fun context => ?_⟩
  intro name found
  have read : Scope.find? context.data (KeyPath.dotted (first :: others)) =
      found.map (⟨name, ·⟩) := Scope.find?_dotted context.data plain
  have success : ∀ node, found = some node →
      context.select (KeyPath.dotted (first :: others)) =
        (.ok node, context.recorded [⟨name, node⟩]) := by
    intro node there
    rw [there] at read
    exact select_of_find? read
  have failure : found = none →
      context.select (KeyPath.dotted (first :: others)) =
        (.error (.keyNotInContext (KeyPath.dotted (first :: others))), context) := by
    intro absent
    rw [absent] at read
    exact select_of_not_find? read
  refine ⟨fun node => ?_, fun node there => ⟨success node there, ?_⟩, failure⟩
  · cases outcome : found with
    | none => simp [failure outcome]
    | some other => simp [success other outcome]
  · intro tracked active
    rw [success node there]
    refine ⟨tracked.record ⟨name, node⟩, by simp [recorded, active, Tracked.recordAll], ?_⟩
    rw [Tracked.keys_record]
    simp [Tracked.addKey]

/-- The setting of a layer, in a list of layers. -/
def layers : Context :=
  { ofEntries {} [("layers", .list [.dict [("units", .int 3)]])] with tracked := some {} }

theorem layers_select_words :
    KeyPath.parse " layers [ 0][units]" = .ok " layers . 0.units" ∧
      (layers.select " layers . 0.units").1 =
        .ok (.scalar (.int 3) ⟨none, ["layers", "0", "units"], true⟩) ∧
      (layers.select " layers . 0.units").2.tracked.map Tracked.keys = some ["layers"] := by
  have parsed : KeyPath.parse " layers [ 0][units]" = .ok " layers . 0.units" := by cbv
  obtain ⟨first, others, spelled, -, selected⟩ := select_words parsed
  have words : KeyPath.Spells [" layers ".toList, " 0".toList, "units".toList]
      " layers [ 0][units]".toList := KeyPath.words_eq_ok_iff.mp (by cbv)
  cases spelled.unique words
  obtain ⟨found, success, -⟩ := selected layers
  have there := (found (.scalar (.int 3) ⟨none, ["layers", "0", "units"], true⟩)).mpr rfl
  obtain ⟨-, tracks⟩ := success _ ((found _).mp there)
  obtain ⟨after, recorded, keys⟩ := tracks {} rfl
  refine ⟨parsed, there, ?_⟩
  rw [recorded, Option.map_some, keys]
  cbv

end Context

end StageTemplates
