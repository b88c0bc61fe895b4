import StageTemplates.Proofs.CanonicalPaths
import StageTemplates.Proofs.MergedEntries
import StageTemplates.Proofs.Provenance

set_option autoImplicit false

/-!
What a call to merge a file can come to: what it reads, merges and notes in the table of imports.
-/
namespace StageTemplates

namespace Context

/-- Each key taken out of a file is one of its own, and they keep the order they are asked for. -/
theorem keys_pick {path : String} {keys : List String} {entries picked : Entries Value}
    (given : pick path keys entries = .ok picked) : Entries.keys picked = keys := by
  induction keys generalizing entries picked with
  | nil =>
      cases given
      rfl
  | cons key rest ih =>
      rw [pick] at given
      split at given
      · cases given
      · split at given
        · next later =>
            cases given
            rw [Entries.keys_cons, ih later]
        · cases given

/-- What a file gives has the keys that were asked for, or all that the file has. -/
theorem keys_fileEntries {fs : FileSystem} {path : String} {keys : Option (List String)}
    {entries : Entries Value} (given : fileEntries fs path keys = .ok entries) :
    ∃ whole, VariablesFile.load fs path = .ok (.dict whole) ∧ entries ⊆ whole ∧
      Entries.keys entries = keys.getD (Entries.keys whole) := by
  obtain ⟨whole, all, within⟩ := fileEntries_within given
  have loaded := fileEntries_none_eq_ok_iff.mp all
  refine ⟨whole, loaded, within, ?_⟩
  cases keys with
  | none =>
      rw [all] at given
      cases given
      rfl
  | some keys =>
      simp only [fileEntries, loaded] at given
      exact keys_pick given

theorem reads_of_ofFile? {fs : FileSystem} {path : String} {keys : Option (List String)}
    {loaded : Context} {reads : List String} (given : ofFile? fs path keys = (.ok loaded, reads)) :
    reads = [path] := by
  unfold ofFile? at given
  split at given
  · cases given
  · split at given
    · cases given
    · split at given
      · cases given
      · cases given
        rfl

theorem keys_ofEntries (origin : Origin) (entries : List (String × Value)) :
    (ofEntries origin entries).keys = Entries.keys entries := by
  unfold Context.keys Entries.keys ofEntries
  rw [Node.ofEntries_eq_map, List.map_map]
  rfl

/-- An item that names keys names at least one. -/
theorem importParts_nonempty {item : String} {keys : List String}
    (named : (importParts item).2 = some keys) : keys ≠ [] := by
  unfold importParts at named
  split at named
  · cases named
  · split at named
    · cases named
    · next some =>
        cases named
        exact some

theorem nodup_keys_addImport {imports : Entries (Option (List String))}
    (distinct : (Entries.keys imports).Nodup) (path : String) (keys : Option (List String)) :
    (Entries.keys (addImport imports path keys)).Nodup := by
  unfold addImport
  split
  · exact Entries.nodup_keys_put distinct path _
  · exact distinct
  · exact Entries.nodup_keys_put distinct path _

theorem value?_addImport_of_none {path : String} {imports : Entries (Option (List String))}
    (unnoted : Entries.value? path imports = none) (keys : Option (List String)) :
    Entries.value? path (addImport imports path keys) = some keys := by
  simp [addImport, unnoted]

theorem value?_addImport_of_part {path : String} {imports : Entries (Option (List String))}
    {loaded : List String} (part : Entries.value? path imports = some (some loaded))
    (keys : List String) :
    Entries.value? path (addImport imports path (some keys)) = some (some (loaded ++ keys)) := by
  simp [addImport, part]

theorem value?_addImport_of_ne {path other : String} (different : other ≠ path)
    (imports : Entries (Option (List String))) (keys : Option (List String)) :
    Entries.value? other (addImport imports path keys) = Entries.value? other imports := by
  unfold addImport
  split
  · exact Entries.value?_put_of_ne different _ imports
  · rfl
  · exact Entries.value?_put_of_ne different _ imports

end Context

open Context

/-- A call that merges what an item names: a path, or a path and keys, from the folder `wdir`. -/
structure ImportCall where
  item : String
  wdir : String
  overwrite : Bool

namespace ImportCall

/-- The path of the file, as the table has it. -/
def path (call : ImportCall) : String := MergePlan.pathOf call.item call.wdir

/-- The keys asked for, or none if the whole file is. -/
def keys (call : ImportCall) : Option (List String) := (importParts call.item).2

def run (fs : FileSystem) (context : Context) (call : ImportCall) : Change :=
  context.mergeFrom fs call.item call.wdir call.overwrite

/-- The keys that a call brings in if it succeeds, each with the file that it is from. A whole file
that is loaded already brings in nothing. -/
def brings (fs : FileSystem) (imports : Entries (Option (List String))) (call : ImportCall) :
    List (String × String) :=
  match (MergePlan.ofImport fs imports call.item call.wdir call.overwrite).update? with
  | some update => update.keys.map (Prod.mk call.path)
  | none => []

end ImportCall

/-- What the table notes of a file leaves room for keys: nothing is noted, or other keys. -/
inductive Vacant : Option (Option (List String)) → Option (List String) → Prop
  | unnoted (keys : Option (List String)) : Vacant none keys
  | apart {loaded keys : List String} (apart : ∀ key ∈ keys, key ∉ loaded) :
      Vacant (some (some loaded)) (some keys)

/-- What a call can come to. It fails and leaves the table alone; or the whole file is loaded
already; or what it asks for is read, merged and noted. -/
inductive ImportResult (fs : FileSystem) (context : Context) (call : ImportCall) : Change → Prop
  | failed {error : ContextError} {after : Context} {reads : List String}
      (imports : after.imports = context.imports) (names : context.keys ⊆ after.keys) :
      ImportResult fs context call ⟨.error error, after, reads⟩
  | known (noted : Entries.value? call.path context.imports = some none)
      (whole : call.keys = none) (nothing : call.brings fs context.imports = []) :
      ImportResult fs context call (.done context)
  | merged {entries : Entries Value} {after : Context}
      (vacant : Vacant (Entries.value? call.path context.imports) call.keys)
      (given : fileEntries fs call.path call.keys = .ok entries)
      (imports : after.imports = addImport context.imports call.path call.keys)
      (names : ∀ name, name ∈ after.keys ↔ name ∈ context.keys ∨ name ∈ Entries.keys entries)
      (brings : call.brings fs context.imports =
        (Entries.keys entries).map (Prod.mk call.path)) :
      ImportResult fs context call ⟨.ok (), after, [call.path]⟩

namespace ImportCall

variable {fs : FileSystem} {context : Context} {call : ImportCall}

/-- A file that there is room for is read, and then merged and noted, or the call fails. -/
theorem result_importFile
    (vacant : Vacant (Entries.value? call.path context.imports) call.keys)
    (planned : MergePlan.ofImport fs context.imports call.item call.wdir call.overwrite =
      .ofFile fs call.item call.path call.keys call.overwrite) :
    ImportResult fs context call
      (context.importFile fs call.item call.path call.keys call.overwrite) := by
  have brings : call.brings fs context.imports =
      match (MergePlan.ofFile fs call.item call.path call.keys call.overwrite).update? with
      | some update => update.keys.map (Prod.mk call.path)
      | none => [] := by rw [ImportCall.brings, planned]
  unfold MergePlan.ofFile at brings
  unfold importFile
  cases loading : ofFile? fs call.path call.keys with
  | mk result reads =>
      rw [loading] at brings
      cases result with
      | error error => exact .failed rfl (List.Subset.refl _)
      | ok update =>
          have read := reads_of_ofFile? loading
          obtain ⟨-, entries, given, same⟩ := ofFile?_eq_ok_iff.mp (congrArg Prod.fst loading)
          have names : update.keys = Entries.keys entries := by
            rw [same]
            exact keys_ofEntries (.ofSource call.path false) entries
          obtain ⟨data, frame⟩ := context.merge_frame update call.overwrite
          have table : (context.merge update call.overwrite).2.imports = context.imports := by
            rw [frame]
          have kept := context.keys_subset_merge update call.overwrite
          dsimp only
          cases merging : context.merge update call.overwrite with
          | mk merged after =>
              rw [merging] at table kept
              cases merged with
              | error error => exact .failed table kept
              | ok success =>
                  have both := mem_keys_merge (congrArg Prod.fst merging)
                  rw [merging, names] at both
                  rw [read]
                  refine .merged vacant given ?_ both ?_
                  · exact congrArg (addImport · call.path call.keys) table
                  · rw [brings]
                    exact congrArg (List.map (Prod.mk call.path)) names

theorem result_run (fs : FileSystem) (context : Context) (call : ImportCall) :
    ImportResult fs context call (call.run fs context) := by
  have planned : MergePlan.ofImport fs context.imports call.item call.wdir call.overwrite =
      .ofPath fs context.imports call.item call.path call.keys call.overwrite := rfl
  unfold MergePlan.ofPath at planned
  unfold run mergeFrom
  dsimp only
  rw [show Path.normalize (Path.join call.wdir (importParts call.item).1) = call.path from rfl,
    show (importParts call.item).2 = call.keys from rfl]
  cases noted : Entries.value? call.path context.imports with
  | none =>
      rw [noted] at planned
      refine result_importFile ?_ planned
      rw [noted]
      exact .unnoted call.keys
  | some loaded =>
      rw [noted] at planned
      dsimp only at planned ⊢
      cases loaded with
      | none =>
          cases asked : call.keys with
          | none =>
              rw [asked] at planned
              exact .known noted asked (by rw [brings, planned]; rfl)
          | some keys => exact .failed rfl (List.Subset.refl _)
      | some loaded =>
          cases asked : call.keys with
          | none => exact .failed rfl (List.Subset.refl _)
          | some keys =>
              rw [asked] at planned
              dsimp only [Option.isNone, reloadConflict?] at planned ⊢
              by_cases overlap : keys.any loaded.contains = true
              · rw [if_pos overlap]
                exact .failed rfl (List.Subset.refl _)
              · rw [if_neg overlap] at planned ⊢
                have apart : ∀ key ∈ keys, key ∉ loaded := by simpa using overlap
                rw [← asked] at planned ⊢
                refine result_importFile ?_ planned
                rw [noted, asked]
                exact .apart apart

theorem normalize_path (call : ImportCall) : Path.normalize call.path = call.path :=
  Path.normalize_normalize _

theorem imports_of_failed {fs : FileSystem} {context : Context} (call : ImportCall)
    {error : ContextError} (failed : (call.run fs context).outcome = .error error) :
    (call.run fs context).context.imports = context.imports := by
  have result := call.result_run fs context
  generalize call.run fs context = change at failed result ⊢
  cases result with
  | failed imports names => exact imports
  | known there whole nothing => rfl
  | merged vacant given imports names brings => cases failed

end ImportCall

end StageTemplates
