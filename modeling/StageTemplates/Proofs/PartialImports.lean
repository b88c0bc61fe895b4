import StageTemplates.Proofs.ImportCalls
import StageTemplates.Proofs.MergedWays

set_option autoImplicit false

/-!
Importing keys of a file at once is importing some of them and then the others. All the keys in the
order of the file make up the file.
-/
namespace StageTemplates

namespace Context

/-- An item that asks for keys of a file. -/
def partItem (file : String) (keys : List String) : String := file ++ ":" ++ ",".intercalate keys

theorem importParts_eq_self {file : String} (plain : ':' ∉ file.toList) :
    importParts file = (file, none) := by
  rw [importParts, Text.cutFirst_eq_none plain]

/-- The file and the keys come out of the item that asks for them. -/
theorem importParts_partItem {file : String} (plain : ':' ∉ file.toList) {keys : List String}
    (nonempty : keys ≠ []) (names : ∀ key ∈ keys, key ≠ "" ∧ ',' ∉ key.toList) :
    importParts (partItem file keys) = (file, some keys) := by
  have text : (partItem file keys).toList =
      file.toList ++ ':' :: (",".intercalate keys).toList := by
    simp [partItem]
  have pieces := splitOn_intercalate "," ',' rfl nonempty fun key member => (names key member).2
  have kept : keys.filter (· ≠ "") = keys :=
    List.filter_eq_self.mpr fun key member => by simpa using (names key member).1
  rw [importParts, text, Text.cutFirst_append plain]
  dsimp only
  rw [pieces, kept, String.ofList_toList]
  cases keys with
  | nil => exact absurd rfl nonempty
  | cons key rest => rfl

section Given

variable {fs : FileSystem} {path : String} {first second : List String}

/-- Keys can be taken out of entries if no key is asked for twice and each has an entry. -/
theorem pick_eq_ok_iff {keys : List String} {entries picked : Entries Value}
    (distinct : (Value.dict entries).Distinct) :
    pick path keys entries = .ok picked ↔
      keys.Nodup ∧ Entries.keys picked = keys ∧ picked ⊆ entries := by
  constructor
  · intro given
    have order := keys_pick given
    have names := ((Value.distinct_dict picked).mp (distinct_pick distinct given).1).1
    exact ⟨order ▸ names, order, pick_subset given⟩
  · rintro ⟨once, order, within⟩
    induction keys generalizing entries picked with
    | nil =>
        rw [List.map_eq_nil_iff.mp order]
        rfl
    | cons key rest ih =>
        cases picked with
        | nil => cases order
        | cons entry others =>
            obtain ⟨name, value⟩ := entry
            obtain ⟨rfl, later⟩ : name = key ∧ Entries.keys others = rest := List.cons.inj order
            obtain ⟨member, within⟩ := List.cons_subset.mp within
            obtain ⟨fresh, once⟩ := List.nodup_cons.mp once
            have found := Entries.value?_of_mem ((Value.distinct_dict entries).mp distinct).1 member
            have left : others ⊆ Entries.erase name entries := by
              intro entry member
              have different : entry.1 ≠ name := fun same =>
                fresh (later ▸ same ▸ List.mem_map_of_mem member)
              exact Entries.mem_erase_of_ne different (within member)
            rw [pick, found]
            dsimp only
            rw [ih (distinct.erase name) once later left]

theorem fileEntries_some_eq_ok_iff {keys : List String} {picked : Entries Value} :
    fileEntries fs path (some keys) = .ok picked ↔
      ∃ entries, VariablesFile.load fs path = .ok (.dict entries) ∧
        keys.Nodup ∧ Entries.keys picked = keys ∧ picked ⊆ entries := by
  constructor
  · intro given
    obtain ⟨entries, loaded, -, -⟩ := keys_fileEntries given
    rw [fileEntries, loaded] at given
    exact ⟨entries, loaded, (pick_eq_ok_iff (VariablesFile.distinct_load loaded)).mp given⟩
  · rintro ⟨entries, loaded, taken⟩
    rw [fileEntries, loaded]
    exact (pick_eq_ok_iff (VariablesFile.distinct_load loaded)).mpr taken

/-- A file gives keys together if and only if it gives some and the others, and no key is among
both. -/
theorem fileEntries_append_eq_ok_iff {picked : Entries Value} :
    fileEntries fs path (some (first ++ second)) = .ok picked ↔
      first.Disjoint second ∧ ∃ one other, picked = one ++ other ∧
        fileEntries fs path (some first) = .ok one ∧
        fileEntries fs path (some second) = .ok other := by
  simp only [fileEntries_some_eq_ok_iff]
  constructor
  · rintro ⟨entries, loaded, once, order, within⟩
    obtain ⟨one, other, rfl, rfl, rfl⟩ := List.map_eq_append_iff.mp order
    rw [List.nodup_append'] at once
    rw [List.append_subset] at within
    exact ⟨once.2.2, one, other, rfl, ⟨entries, loaded, once.1, rfl, within.1⟩,
      ⟨entries, loaded, once.2.1, rfl, within.2⟩⟩
  · rintro ⟨apart, one, other, rfl, ⟨entries, loaded, once, order, within⟩,
      ⟨same, loaded', once', order', within'⟩⟩
    rw [loaded] at loaded'
    cases loaded'
    refine ⟨entries, loaded, List.nodup_append'.mpr ⟨once, once', apart⟩, ?_,
      List.append_subset.mpr ⟨within, within'⟩⟩
    rw [Entries.keys_append, order, order']

/-- All the keys of a file, in its order, give all that it has. -/
theorem eq_of_fileEntries_keys {entries picked : Entries Value}
    (loaded : VariablesFile.load fs path = .ok (.dict entries))
    (given : fileEntries fs path (some (Entries.keys entries)) = .ok picked) :
    picked = entries := by
  have distinct := VariablesFile.distinct_load loaded
  have whole : pick path (Entries.keys entries) entries = .ok entries :=
    (pick_eq_ok_iff distinct).mpr
      ⟨((Value.distinct_dict entries).mp distinct).1, rfl, List.Subset.refl _⟩
  rw [fileEntries, loaded] at given
  dsimp only at given
  rw [whole] at given
  cases given
  rfl

end Given

section Table

variable {path : String} {imports : Entries (Option (List String))} {first second : List String}

theorem vacant_part_iff {loaded keys : List String} :
    Vacant (some (some loaded)) (some keys) ↔ ∀ key ∈ keys, key ∉ loaded :=
  ⟨fun vacant => by cases vacant with | apart apart => exact apart, Vacant.apart⟩

theorem not_vacant_whole (keys : Option (List String)) : ¬ Vacant (some none) keys := by
  intro vacant
  cases vacant

/-- There is room for keys of a file if there is room for some, and then for the others. -/
theorem vacant_append_iff :
    Vacant (Entries.value? path imports) (some (first ++ second)) ∧ first.Disjoint second ↔
      Vacant (Entries.value? path imports) (some first) ∧
        Vacant (Entries.value? path (addImport imports path (some first))) (some second) := by
  cases noted : Entries.value? path imports with
  | none =>
      rw [value?_addImport_of_none noted, vacant_part_iff]
      constructor
      · rintro ⟨-, apart⟩
        exact ⟨.unnoted _, fun key later earlier => apart earlier later⟩
      · rintro ⟨-, apart⟩
        exact ⟨.unnoted _, fun key earlier later => apart key later earlier⟩
  | some loaded =>
      cases loaded with
      | none => exact ⟨fun both => absurd both.1 (not_vacant_whole _),
          fun both => absurd both.1 (not_vacant_whole _)⟩
      | some loaded =>
          rw [value?_addImport_of_part noted, vacant_part_iff, vacant_part_iff, vacant_part_iff,
            List.forall_mem_append]
          constructor
          · rintro ⟨⟨one, other⟩, apart⟩
            refine ⟨one, fun key later member => ?_⟩
            rcases List.mem_append.mp member with old | earlier
            · exact other key later old
            · exact apart earlier later
          · rintro ⟨one, other⟩
            exact ⟨⟨one, fun key later old => other key later (List.mem_append_left _ old)⟩,
              fun key earlier later => other key later (List.mem_append_right _ earlier)⟩

theorem addImport_of_none (unnoted : Entries.value? path imports = none)
    (keys : Option (List String)) :
    addImport imports path keys = Entries.put path keys imports := by
  rw [addImport, unnoted]

theorem addImport_of_whole (whole : Entries.value? path imports = some none)
    (keys : Option (List String)) : addImport imports path keys = imports := by
  rw [addImport, whole]

theorem addImport_of_part {loaded : List String}
    (part : Entries.value? path imports = some (some loaded)) (keys : List String) :
    addImport imports path (some keys) = Entries.put path (some (loaded ++ keys)) imports := by
  rw [addImport, part]
  rfl

/-- The table notes keys together as it notes some and then the others. -/
theorem addImport_append :
    addImport imports path (some (first ++ second)) =
      addImport (addImport imports path (some first)) path (some second) := by
  have again (value : List String) : Entries.value? path
      (Entries.put path (some value) imports) = some (some value) :=
    Entries.value?_put_self path _ imports
  cases noted : Entries.value? path imports with
  | none =>
      rw [addImport_of_none noted, addImport_of_none noted, addImport_of_part (again first),
        Entries.put_put_self]
  | some loaded =>
      cases loaded with
      | none => rw [addImport_of_whole noted, addImport_of_whole noted, addImport_of_whole noted]
      | some loaded =>
          rw [addImport_of_part noted, addImport_of_part noted, addImport_of_part (again _),
            Entries.put_put_self, List.append_assoc]

end Table

theorem merge_eq_iff {context update after : Context} {overwrite : Bool} :
    context.merge update overwrite = (.ok (), after) ↔
      (∀ key ∈ context.reserved, key ∉ update.keys) ∧
        Node.mergeEntries overwrite context.data update.data = (after.data, none) ∧
        after = { context with data := after.data } := by
  by_cases untouched : ∀ key ∈ context.reserved, key ∉ update.keys
  · rw [merge_of_untouched untouched]
    rcases Node.mergeEntries overwrite context.data update.data with ⟨data, none | error⟩
    · constructor
      · intro success
        cases success
        exact ⟨untouched, rfl, rfl⟩
      · rintro ⟨-, merged, frame⟩
        cases merged
        rw [frame]
    · simp
  · cases touched : context.touched update with
    | nil => exact absurd (touched_eq_nil_iff.mp touched) untouched
    | cons key rest =>
        rw [merge, touched]
        simp [untouched]

/-- Keys of a file, or all of it, as they come to stand among the variables: the table has room for
them, the file gives them, and they merge. -/
structure Imported (fs : FileSystem) (context : Context) (path : String)
    (keys : Option (List String)) (overwrite : Bool) (entries : Entries Value) (after : Context) :
    Prop where
  vacant : Vacant (Entries.value? path context.imports) keys
  isFile : fs.exists? path = true ∧ fs.isFolder path = false
  given : fileEntries fs path keys = .ok entries
  untouched : ∀ key ∈ context.reserved, key ∉ Entries.keys entries
  merged : Node.mergeEntries overwrite context.data
    (Node.ofEntries (.ofSource path false) entries) = (after.data, none)
  frame : after =
    { context with data := after.data, imports := addImport context.imports path keys }

end Context

open Context

namespace MergePlan

variable {fs : FileSystem} {context after : Context} {item path : String}
  {keys : Option (List String)} {overwrite : Bool}

/-- A path that is not known as a whole file is loaded if and only if the table has room. -/
theorem run_ofPath_eq_ok_iff {imports : Entries (Option (List String))}
    (unknown : keys = none → Entries.value? path imports = none) :
    (ofPath fs imports item path keys overwrite).run context = (.ok (), after) ↔
      Vacant (Entries.value? path imports) keys ∧
        (ofFile fs item path keys overwrite).run context = (.ok (), after) := by
  unfold ofPath
  cases noted : Entries.value? path imports with
  | none => exact ⟨fun success => ⟨.unnoted keys, success⟩, And.right⟩
  | some loaded =>
      dsimp only
      cases keys with
      | none =>
          rw [unknown rfl] at noted
          cases noted
      | some keys =>
          cases loaded with
          | none => exact ⟨fun success => (by cases success), fun both =>
              absurd both.1 (not_vacant_whole _)⟩
          | some loaded =>
              rw [vacant_part_iff]
              dsimp only [Option.isNone, reloadConflict?]
              by_cases overlap : keys.any loaded.contains = true
              · rw [if_pos overlap]
                have shared : ¬ ∀ key ∈ keys, key ∉ loaded := by simpa using overlap
                exact ⟨fun success => (by cases success), fun both => absurd both.1 shared⟩
              · rw [if_neg overlap]
                have apart : ∀ key ∈ keys, key ∉ loaded := by simpa using overlap
                exact ⟨fun success => ⟨apart, success⟩, And.right⟩

theorem run_merging_eq_ok_iff {update : Context} {file : Option ImportNote} :
    (merging update overwrite file).run context = (.ok (), after) ↔
      ∃ merged, context.merge update overwrite = (.ok (), merged) ∧
        after = { merged with imports := noted merged.imports file } := by
  rw [run]
  rcases context.merge update overwrite with ⟨error | done, merged⟩
  · simp
  · simp [eq_comm]

theorem run_ofFile_eq_ok_iff (vacant : Vacant (Entries.value? path context.imports) keys) :
    (ofFile fs item path keys overwrite).run context = (.ok (), after) ↔
      ∃ entries, Imported fs context path keys overwrite entries after := by
  unfold ofFile
  constructor
  · intro success
    cases loading : (ofFile? fs path keys).1 with
    | error error =>
        rw [loading] at success
        cases success
    | ok update =>
        obtain ⟨isFile, entries, given, rfl⟩ := ofFile?_eq_ok_iff.mp loading
        rw [loading] at success
        obtain ⟨merged, merging, rfl⟩ := run_merging_eq_ok_iff.mp success
        obtain ⟨untouched, ended, frame⟩ := merge_eq_iff.mp merging
        refine ⟨entries, vacant, isFile, given, ?_, ended, ?_⟩
        · intro key reserved member
          exact untouched key reserved (keys_ofEntries (.ofSource path false) entries ▸ member)
        · rw [frame]
          rfl
  · rintro ⟨entries, imported⟩
    rw [ofFile?_eq_ok_iff.mpr ⟨imported.isFile, entries, imported.given, rfl⟩]
    refine run_merging_eq_ok_iff.mpr ⟨{ context with data := after.data }, ?_, imported.frame⟩
    refine merge_eq_iff.mpr ⟨fun key reserved member => ?_, imported.merged, rfl⟩
    exact imported.untouched key reserved
      (keys_ofEntries (.ofSource path false) entries ▸ member)

end MergePlan

namespace Context

variable {fs : FileSystem} {context after : Context} {path : String} {overwrite : Bool}

/-- A call succeeds with the variables that it says, unless it asks for a whole file of which the
table notes something. -/
theorem effect_mergeFrom_eq_ok_iff {item wdir : String}
    (unknown : (importParts item).2 = none →
      Entries.value? (MergePlan.pathOf item wdir) context.imports = none) :
    (context.mergeFrom fs item wdir overwrite).effect = (.ok (), after) ↔
      ∃ entries, Imported fs context (MergePlan.pathOf item wdir) (importParts item).2 overwrite
        entries after := by
  rw [effect_mergeFrom, MergePlan.ofImport, MergePlan.run_ofPath_eq_ok_iff unknown]
  constructor
  · rintro ⟨vacant, success⟩
    exact (MergePlan.run_ofFile_eq_ok_iff vacant).mp success
  · rintro ⟨entries, imported⟩
    exact ⟨imported.vacant,
      (MergePlan.run_ofFile_eq_ok_iff imported.vacant).mpr ⟨entries, imported⟩⟩

section Parts

variable {first second : List String}

/-- After some keys of a file the others can be imported if all can. -/
theorem Imported.parts {entries : Entries Value}
    (imported : Imported fs context path (some (first ++ second)) overwrite entries after) :
    ∃ middle one other, Imported fs context path (some first) overwrite one middle ∧
      Imported fs middle path (some second) overwrite other after := by
  obtain ⟨apart, one, other, rfl, given, given'⟩ :=
    fileEntries_append_eq_ok_iff.mp imported.given
  obtain ⟨vacant, vacant'⟩ := vacant_append_iff.mp ⟨imported.vacant, apart⟩
  have merged := imported.merged
  rw [Node.ofEntries_append, Node.mergeEntries_append_eq_iff] at merged
  obtain ⟨data, merged, merged'⟩ := merged
  have untouched := imported.untouched
  simp only [Entries.keys_append, List.mem_append, not_or] at untouched
  refine ⟨{ context with data, imports := addImport context.imports path (some first) },
    one, other, ?_, ?_⟩
  · exact ⟨vacant, imported.isFile, given, fun key reserved => (untouched key reserved).1,
      merged, rfl⟩
  · refine ⟨vacant', imported.isFile, given', fun key reserved => (untouched key reserved).2,
      merged', ?_⟩
    rw [imported.frame, addImport_append]

/-- Some keys and then others of a file could have been imported together. -/
theorem Imported.append {middle : Context} {one other : Entries Value}
    (earlier : Imported fs context path (some first) overwrite one middle)
    (later : Imported fs middle path (some second) overwrite other after) :
    Imported fs context path (some (first ++ second)) overwrite (one ++ other) after := by
  have vacant := later.vacant
  have untouched := later.untouched
  have frame := later.frame
  rw [earlier.frame] at vacant untouched frame
  obtain ⟨room, apart⟩ := vacant_append_iff.mpr ⟨earlier.vacant, vacant⟩
  constructor
  · exact room
  · exact earlier.isFile
  · exact fileEntries_append_eq_ok_iff.mpr ⟨apart, one, other, rfl, earlier.given, later.given⟩
  · intro key reserved member
    rw [Entries.keys_append] at member
    rcases List.mem_append.mp member with inOne | inOther
    · exact earlier.untouched key reserved inOne
    · exact untouched key reserved inOther
  · rw [Node.ofEntries_append, Node.mergeEntries_append_eq_iff]
    exact ⟨middle.data, earlier.merged, later.merged⟩
  · rw [addImport_append]
    exact frame

/-- Keys of a file are imported together if and only if some are, and then the others. -/
theorem exists_imported_append_iff :
    (∃ entries, Imported fs context path (some (first ++ second)) overwrite entries after) ↔
      ∃ middle, (∃ entries, Imported fs context path (some first) overwrite entries middle) ∧
        ∃ entries, Imported fs middle path (some second) overwrite entries after := by
  constructor
  · rintro ⟨entries, imported⟩
    obtain ⟨middle, one, other, earlier, later⟩ := imported.parts
    exact ⟨middle, ⟨one, earlier⟩, other, later⟩
  · rintro ⟨middle, ⟨one, earlier⟩, other, later⟩
    exact ⟨one ++ other, earlier.append later⟩

end Parts

/-- Importing all the keys of a file in its order brings in what importing the file does. -/
theorem Imported.whole {entries picked : Entries Value}
    (imported : Imported fs context path (some (Entries.keys entries)) overwrite picked after)
    (unnoted : Entries.value? path context.imports = none)
    (loaded : VariablesFile.load fs path = .ok (.dict entries)) :
    Imported fs context path none overwrite entries
      { after with imports := addImport context.imports path none } := by
  obtain rfl := eq_of_fileEntries_keys loaded imported.given
  refine ⟨?_, imported.isFile, fileEntries_none_eq_ok_iff.mpr loaded, imported.untouched,
    imported.merged, ?_⟩
  · rw [unnoted]
    exact .unnoted none
  · rw [imported.frame]

theorem effect_partItem_eq_ok_iff {file wdir : String} {keys : List String}
    (plain : ':' ∉ file.toList) (nonempty : keys ≠ [])
    (names : ∀ key ∈ keys, key ≠ "" ∧ ',' ∉ key.toList) :
    (context.mergeFrom fs (partItem file keys) wdir overwrite).effect = (.ok (), after) ↔
      ∃ entries, Imported fs context (Path.normalize (Path.join wdir file)) (some keys) overwrite
        entries after := by
  have parts := importParts_partItem plain nonempty names
  refine (effect_mergeFrom_eq_ok_iff ?_).trans ?_
  · rw [parts]
    intro none
    cases none
  · rw [MergePlan.pathOf, parts]

/-- Keys of a file can be imported together if and only if some of them can, and the others after
them; the variables and the table of imports come out the same. If the file was not imported and
these are all its keys in its order, then the whole file can be imported instead, with the same
variables. -/
theorem mergeFrom_parts (fs : FileSystem) (context : Context) (wdir : String) (overwrite : Bool)
    {file : String} (plain : ':' ∉ file.toList) {first second : List String}
    (nonempty : first ≠ []) (nonempty' : second ≠ [])
    (names : ∀ key ∈ first ++ second, key ≠ "" ∧ ',' ∉ key.toList) :
    let together := context.mergeFrom fs (partItem file (first ++ second)) wdir overwrite
    let one := context.mergeFrom fs (partItem file first) wdir overwrite
    let other := one.context.mergeFrom fs (partItem file second) wdir overwrite
    let path := Path.normalize (Path.join wdir file)
    let whole := context.mergeFrom fs file wdir overwrite
    (together.outcome = .ok () ↔ one.outcome = .ok () ∧ other.outcome = .ok ()) ∧
      (together.outcome = .ok () →
        together.context = other.context ∧
        ∀ entries, Entries.value? path context.imports = none →
          VariablesFile.load fs path = .ok (.dict entries) →
          Entries.keys entries = first ++ second →
            whole.outcome = .ok () ∧ whole.context.data = together.context.data) := by
  intro together one other path whole
  obtain ⟨names', names''⟩ := List.forall_mem_append.mp names
  have all : first ++ second ≠ [] := List.append_ne_nil_of_left_ne_nil nonempty second
  -- Said of every result at once, so that outcome and context are both read off it.
  have inParts : ∀ after, together.effect = (.ok (), after) ↔
      one.outcome = .ok () ∧ other.effect = (.ok (), after) := by
    intro after
    rw [effect_partItem_eq_ok_iff plain all names, exists_imported_append_iff]
    simp only [← effect_partItem_eq_ok_iff plain nonempty names',
      ← effect_partItem_eq_ok_iff plain nonempty' names'']
    constructor
    · rintro ⟨middle, earlier, later⟩
      obtain ⟨success, rfl⟩ := Change.effect_eq_iff.mp earlier
      exact ⟨success, later⟩
    · rintro ⟨success, later⟩
      exact ⟨one.context, Change.effect_eq_iff.mpr ⟨success, rfl⟩, later⟩
  simp only [Change.effect_eq_iff] at inParts
  refine ⟨⟨fun success => ?_, fun ⟨earlier, later⟩ => ?_⟩, fun success => ⟨?_, ?_⟩⟩
  · obtain ⟨earlier, later, -⟩ := (inParts together.context).mp ⟨success, rfl⟩
    exact ⟨earlier, later⟩
  · exact ((inParts other.context).mpr ⟨earlier, later, rfl⟩).1
  · obtain ⟨-, -, same⟩ := (inParts together.context).mp ⟨success, rfl⟩
    exact same.symm
  · intro entries unnoted loaded order
    have parts := importParts_eq_self plain
    have effect : together.effect = (.ok (), together.context) :=
      Change.effect_eq_iff.mpr ⟨success, rfl⟩
    obtain ⟨picked, imported⟩ := (effect_partItem_eq_ok_iff plain all names).mp effect
    rw [← order] at imported
    have alike : whole.effect =
        (.ok (), { together.context with imports := addImport context.imports path none }) := by
      refine (effect_mergeFrom_eq_ok_iff ?_).mpr ⟨entries, ?_⟩
      · rw [MergePlan.pathOf, parts]
        exact fun _ => unnoted
      · rw [MergePlan.pathOf, parts]
        exact imported.whole unnoted loaded
    obtain ⟨done, same⟩ := Change.effect_eq_iff.mp alike
    exact ⟨done, by rw [same]⟩

/-- A file of three variables. -/
def measures : FileSystem :=
  (MemoryFiles.ofListing
    [("data/sizes.json", "\x7b\"rows\": \x7b\"train\": 3\x7d, \"lr\": 5, \"cols\": 4\x7d")]
    []).fileSystem

/-- What the file has. -/
def sizes : Entries Value := [("rows", .dict [("train", .int 3)]), ("lr", .int 5), ("cols", .int 4)]

/-- Variables with a part of one of them. -/
def started : Context := ofEntries {} [("rows", .dict [("test", .int 1)])]

theorem measures_mergeFrom_parts :
    let together := started.mergeFrom measures "./sizes.json:rows,lr,cols" "data" false
    let one := started.mergeFrom measures "./sizes.json:rows,lr" "data" false
    let other := one.context.mergeFrom measures "./sizes.json:cols" "data" false
    let whole := started.mergeFrom measures "./sizes.json" "data" false
    (together.outcome = .ok () ∧
        together.context.imports = [("data/sizes.json", some ["rows", "lr", "cols"])] ∧
        together.context.toValue.json =
          "\x7b\"rows\":\x7b\"test\":1,\"train\":3\x7d,\"lr\":5,\"cols\":4\x7d") ∧
      (VariablesFile.load measures "data/sizes.json" = .ok (.dict sizes) ∧
        Entries.keys sizes = ["rows", "lr", "cols"]) ∧
      (one.outcome = .ok () ∧ other.outcome = .ok ()) ∧ together.context = other.context ∧
      whole.outcome = .ok () ∧ whole.context.data = together.context.data := by
  have all : partItem "./sizes.json" (["rows", "lr"] ++ ["cols"]) =
      "./sizes.json:rows,lr,cols" := rfl
  have start : partItem "./sizes.json" ["rows", "lr"] = "./sizes.json:rows,lr" := rfl
  have last : partItem "./sizes.json" ["cols"] = "./sizes.json:cols" := rfl
  have path : Path.normalize (Path.join "data" "./sizes.json") = "data/sizes.json" := by
    decide +kernel
  obtain ⟨success, noted⟩ :
      (started.mergeFrom measures "./sizes.json:rows,lr,cols" "data" false).outcome = .ok () ∧
        (started.mergeFrom measures "./sizes.json:rows,lr,cols" "data" false).context.imports =
          [("data/sizes.json", some ["rows", "lr", "cols"])] := by decide +kernel
  have shown :
      (started.mergeFrom measures "./sizes.json:rows,lr,cols" "data" false).context.toValue.json =
        "\x7b\"rows\":\x7b\"test\":1,\"train\":3\x7d,\"lr\":5,\"cols\":4\x7d" := by
    decide +kernel
  have loaded : VariablesFile.load measures "data/sizes.json" = .ok (.dict sizes) := rfl
  obtain ⟨outcomes, contexts⟩ := mergeFrom_parts measures started "data" false
    (show ':' ∉ "./sizes.json".toList by decide) (List.cons_ne_nil "rows" ["lr"])
    (List.cons_ne_nil "cols" []) (by decide)
  rw [all, start, last] at outcomes contexts
  rw [path] at contexts
  obtain ⟨same, alike⟩ := contexts success
  exact ⟨⟨success, noted, shown⟩, ⟨loaded, rfl⟩, outcomes.mp success, same,
    alike sizes rfl loaded rfl⟩

end Context

end StageTemplates
