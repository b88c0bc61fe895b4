import StageTemplates.Proofs.ImportCalls

set_option autoImplicit false

/-!
The table of imports tells what calls have loaded of which file, whatever calls there were and
however many of them failed.
-/
namespace StageTemplates

open Context

namespace ImportCall

/-- What calls ask for in a file, call by call. -/
def asked (calls : List ImportCall) (path : String) : List (Option (List String)) :=
  (calls.filter fun call => call.path = path).map keys

theorem asked_append_self (calls : List ImportCall) (call : ImportCall) :
    asked (calls ++ [call]) call.path = asked calls call.path ++ [call.keys] := by
  simp [asked]

theorem asked_append_of_ne {path : String} (calls : List ImportCall) {call : ImportCall}
    (other : path ≠ call.path) : asked (calls ++ [call]) path = asked calls path := by
  simp [asked, other.symm]

end ImportCall

/-- What is noted of a file after the successful calls for it, given what each of them asked for:
nothing if there was none; the whole file if all of them asked for it; the keys of all of them, one
after another, if each asked for keys. They cannot have asked for both. -/
inductive Notes : List (Option (List String)) → Option (Option (List String)) → Prop
  | nothing : Notes [] none
  | whole (again : Nat) : Notes (List.replicate (again + 1) none) (some none)
  | part {lists : List (List String)} {loaded : List String} (inTurn : lists.flatten = loaded)
      (nonempty : loaded ≠ []) (distinct : loaded.Nodup) :
      Notes (lists.map some) (some (some loaded))

namespace Notes

variable {asked : List (Option (List String))}

theorem asked_ne_nil {noted : Option (List String)} (notes : Notes asked (some noted)) :
    asked ≠ [] := by
  cases notes with
  | whole again => simp
  | part inTurn nonempty distinct =>
      intro nothing
      rw [List.map_eq_nil_iff] at nothing
      rw [nothing, List.flatten_nil] at inTurn
      exact nonempty inTurn.symm

theorem again (notes : Notes asked (some none)) {keys : Option (List String)}
    (whole : keys = none) : Notes (asked ++ [keys]) (some none) := by
  cases notes with
  | whole again =>
      rw [whole, ← List.replicate_succ']
      exact .whole (again + 1)

theorem first (notes : Notes asked none) {keys : Option (List String)}
    (nonempty : ∀ names, keys = some names → names ≠ [])
    (distinct : ∀ names, keys = some names → names.Nodup) :
    Notes (asked ++ [keys]) (some keys) := by
  cases notes
  cases keys with
  | none => exact .whole 0
  | some keys =>
      have one : Notes ([keys].map some) (some (some keys)) :=
        .part (by simp) (nonempty keys rfl) (distinct keys rfl)
      exact one

theorem more {loaded : List String} (notes : Notes asked (some (some loaded)))
    {keys : List String} (distinct : keys.Nodup) (apart : ∀ key ∈ keys, key ∉ loaded) :
    Notes (asked ++ [some keys]) (some (some (loaded ++ keys))) := by
  cases notes with
  | @part lists _ inTurn nonempty old =>
      have flat : (lists ++ [keys]).flatten = loaded ++ keys := by simp [inTurn]
      have together : (loaded ++ keys).Nodup := by
        refine List.nodup_append.mpr ⟨old, distinct, ?_⟩
        intro name member other later same
        exact apart other later (same ▸ member)
      have both := Notes.part flat (List.append_ne_nil_of_left_ne_nil nonempty keys) together
      rwa [List.map_append] at both

/-- The notes of a file go on with keys that it has room for. -/
theorem add {path : String} {imports : Entries (Option (List String))}
    {keys : Option (List String)} (notes : Notes asked (Entries.value? path imports))
    (vacant : Vacant (Entries.value? path imports) keys)
    (nonempty : ∀ names, keys = some names → names ≠ [])
    (distinct : ∀ names, keys = some names → names.Nodup) :
    Notes (asked ++ [keys]) (Entries.value? path (addImport imports path keys)) := by
  generalize there : Entries.value? path imports = noted at notes vacant
  cases vacant with
  | unnoted =>
      rw [value?_addImport_of_none there]
      exact notes.first nonempty distinct
  | @apart loaded keys apart =>
      rw [value?_addImport_of_part there]
      exact notes.more (distinct keys rfl) apart

end Notes

/-- A key that an entry of the table covers: one of those noted, or any key of the whole file. -/
def Covered (fs : FileSystem) (imports : Entries (Option (List String))) (path name : String) :
    Prop :=
  ∃ noted whole, Entries.value? path imports = some noted ∧
    VariablesFile.load fs path = .ok (.dict whole) ∧ name ∈ noted.getD (Entries.keys whole)

/-- Each file in the table can be loaded, and has the keys that are noted. -/
def Loads (fs : FileSystem) (imports : Entries (Option (List String))) : Prop :=
  ∀ path noted, Entries.value? path imports = some noted →
    ∃ whole, VariablesFile.load fs path = .ok (.dict whole) ∧
      noted.getD (Entries.keys whole) ⊆ Entries.keys whole

section Adding

variable {fs : FileSystem} {imports : Entries (Option (List String))} {path : String}
  {keys : Option (List String)} {entries : Entries Value}
  (vacant : Vacant (Entries.value? path imports) keys)
  (given : fileEntries fs path keys = .ok entries)
include vacant

/-- With keys added, an entry stands for them and for what it stood for before. -/
theorem exists_value?_addImport :
    ∃ noted, Entries.value? path (addImport imports path keys) = some noted ∧
      ∀ all name, name ∈ noted.getD all ↔ name ∈ keys.getD all ∨
        ∃ old, Entries.value? path imports = some old ∧ name ∈ old.getD all := by
  generalize there : Entries.value? path imports = noted at vacant
  cases vacant with
  | unnoted => exact ⟨keys, value?_addImport_of_none there keys, by simp⟩
  | @apart loaded keys apart =>
      refine ⟨_, value?_addImport_of_part there keys, fun all name => ?_⟩
      simp [or_comm]

theorem Vacant.unnoted_of_whole
    (whole : Entries.value? path (addImport imports path keys) = some none) :
    Entries.value? path imports = none := by
  generalize there : Entries.value? path imports = noted at vacant
  cases vacant with
  | unnoted => rfl
  | @apart loaded keys apart =>
      rw [value?_addImport_of_part there] at whole
      cases whole

include given

theorem Vacant.not_covered {name : String} (own : name ∈ Entries.keys entries) :
    ¬ Covered fs imports path name := by
  rintro ⟨noted, whole, there, loaded, member⟩
  obtain ⟨file, -, -, taken⟩ := keys_fileEntries given
  rw [there] at vacant
  cases vacant with
  | apart apart =>
      rw [taken] at own
      exact apart name own member

theorem covered_addImport (other name : String) :
    Covered fs (addImport imports path keys) other name ↔
      Covered fs imports other name ∨ (other = path ∧ name ∈ Entries.keys entries) := by
  by_cases here : other = path
  · obtain ⟨noted, there, members⟩ := exists_value?_addImport vacant
    obtain ⟨file, loaded, -, taken⟩ := keys_fileEntries given
    subst here
    constructor
    · rintro ⟨found, whole, again, reloaded, member⟩
      cases there.symm.trans again
      cases loaded.symm.trans reloaded
      rcases (members _ name).mp member with new | ⟨old, before, member⟩
      · exact Or.inr ⟨rfl, taken ▸ new⟩
      · exact Or.inl ⟨old, file, before, loaded, member⟩
    · rintro (⟨old, whole, before, reloaded, member⟩ | ⟨-, own⟩)
      · exact ⟨noted, whole, there, reloaded, (members _ name).mpr (Or.inr ⟨old, before, member⟩)⟩
      · rw [taken] at own
        exact ⟨noted, file, there, loaded, (members _ name).mpr (Or.inl own)⟩
  · have same := value?_addImport_of_ne here imports keys
    have apart : ¬ (other = path ∧ name ∈ Entries.keys entries) := fun both => here both.1
    rw [or_iff_left apart, Covered, same]
    exact Iff.rfl

theorem loads_addImport (loads : Loads fs imports) : Loads fs (addImport imports path keys) := by
  intro other noted found
  by_cases here : other = path
  · obtain ⟨note, there, members⟩ := exists_value?_addImport vacant
    obtain ⟨whole, loaded, within, taken⟩ := keys_fileEntries given
    subst here
    cases there.symm.trans found
    refine ⟨whole, loaded, fun name member => ?_⟩
    rcases (members _ name).mp member with new | ⟨old, before, member⟩
    · rw [← taken] at new
      exact List.map_subset Prod.fst within new
    · obtain ⟨file, reloaded, own⟩ := loads other old before
      cases loaded.symm.trans reloaded
      exact own member
  · rw [value?_addImport_of_ne here] at found
    exact loads other noted found

end Adding

/-- What calls one after another came to: the context after them, the calls that succeeded, the keys
that these brought in, the files that were read, and the errors of the calls that failed. -/
structure ImportHistory where
  context : Context
  done : List ImportCall := []
  brought : List (String × String) := []
  reads : List String := []
  failures : List ContextError := []

namespace ImportHistory

def step (fs : FileSystem) (history : ImportHistory) (call : ImportCall) : ImportHistory :=
  let change := call.run fs history.context
  match change.outcome with
  | .error error =>
      { history with
        context := change.context
        reads := history.reads ++ change.reads
        failures := history.failures ++ [error] }
  | .ok _ =>
      { history with
        context := change.context
        done := history.done ++ [call]
        brought := history.brought ++ call.brings fs history.context.imports
        reads := history.reads ++ change.reads }

def after (fs : FileSystem) (calls : List ImportCall) (start : Context) : ImportHistory :=
  calls.foldl (step fs) { context := start }

/-- The table has one entry for each file that was asked for, with the notes for it. -/
structure Noted (history : ImportHistory) : Prop where
  distinct : (Entries.keys history.context.imports).Nodup
  notes : ∀ path,
    Notes (ImportCall.asked history.done path) (Entries.value? path history.context.imports)

/-- What the table notes is in the files and among the variables; it is what was brought in, and
nothing was brought in twice. -/
structure Held (fs : FileSystem) (history : ImportHistory) : Prop where
  loads : Loads fs history.context.imports
  held : ∀ path name, Covered fs history.context.imports path name → name ∈ history.context.keys
  brought : ∀ path name,
    (path, name) ∈ history.brought ↔ Covered fs history.context.imports path name
  once : history.brought.Nodup

/-- Without failures a file that is noted as a whole was read once, and one that is not noted never
was. -/
structure ReadOnce (history : ImportHistory) : Prop where
  unread : history.failures = [] → ∀ path,
    Entries.value? path history.context.imports = none → path ∉ ReadLog.ofPaths history.reads
  once : history.failures = [] → ∀ path,
    Entries.value? path history.context.imports = some none →
      (ReadLog.ofPaths history.reads).count path = 1

variable {fs : FileSystem} {history : ImportHistory}

theorem Noted.step (noted : history.Noted) (fs : FileSystem) (call : ImportCall) :
    (history.step fs call).Noted := by
  have result := call.result_run fs history.context
  unfold ImportHistory.step
  generalize call.run fs history.context = change at result ⊢
  cases result with
  | @failed error after reads imports names =>
      have distinct := noted.distinct
      have notes := noted.notes
      rw [← imports] at distinct notes
      exact ⟨distinct, notes⟩
  | known there whole nothing =>
      refine ⟨noted.distinct, fun path => ?_⟩
      have old := noted.notes path
      dsimp only [Change.done]
      by_cases here : path = call.path
      · rw [here, there] at old ⊢
        rw [ImportCall.asked_append_self]
        exact old.again whole
      · rw [ImportCall.asked_append_of_ne _ here]
        exact old
  | @merged entries after vacant given imports names brings =>
      refine ⟨?_, fun path => ?_⟩
      · dsimp only
        rw [imports]
        exact nodup_keys_addImport noted.distinct call.path call.keys
      have old := noted.notes path
      dsimp only
      rw [imports]
      by_cases here : path = call.path
      · rw [here] at old ⊢
        rw [ImportCall.asked_append_self]
        obtain ⟨whole, loaded, within, taken⟩ := keys_fileEntries given
        refine old.add vacant (fun keys asked => importParts_nonempty asked) ?_
        intro keys asked
        have distinct := ((Value.distinct_dict entries).mp (distinct_fileEntries given)).1
        rw [taken, asked] at distinct
        exact distinct
      · rw [ImportCall.asked_append_of_ne _ here, value?_addImport_of_ne here]
        exact old

/-- What has an entry was asked for. -/
theorem Noted.normal (noted : history.Noted) {path : String}
    (listed : path ∈ Entries.keys history.context.imports) : Path.normalize path = path := by
  have notes := noted.notes path
  cases there : Entries.value? path history.context.imports with
  | none => exact absurd listed ((Entries.value?_eq_none_iff path _).mp there)
  | some note =>
      rw [there] at notes
      obtain ⟨keys, member⟩ := List.exists_mem_of_ne_nil _ notes.asked_ne_nil
      obtain ⟨call, succeeded, -⟩ := List.mem_map.mp member
      have same : call.path = path := by simpa using (List.mem_filter.mp succeeded).2
      rw [← same, call.normalize_path]

theorem Held.step (held : history.Held fs) (call : ImportCall) :
    (history.step fs call).Held fs := by
  have result := call.result_run fs history.context
  unfold ImportHistory.step
  generalize call.run fs history.context = change at result ⊢
  cases result with
  | @failed error after reads imports names =>
      obtain ⟨loads, held, brought, once⟩ := held
      rw [← imports] at loads held brought
      exact ⟨loads, fun path name covered => names (held path name covered), brought, once⟩
  | known there whole nothing =>
      dsimp only [Change.done]
      rw [nothing, List.append_nil]
      exact ⟨held.loads, held.held, held.brought, held.once⟩
  | @merged entries after vacant given imports names brings =>
      have covered := fun path name => covered_addImport vacant given path name
      rw [← imports] at covered
      have new : ∀ path name, (path, name) ∈ call.brings fs history.context.imports ↔
          path = call.path ∧ name ∈ Entries.keys entries := by
        intro path name
        rw [brings, List.mem_map]
        constructor
        · rintro ⟨other, member, same⟩
          cases same
          exact ⟨rfl, member⟩
        · rintro ⟨rfl, member⟩
          exact ⟨name, member, rfl⟩
      refine ⟨?_, ?_, ?_, ?_⟩
      · dsimp only
        rw [imports]
        exact loads_addImport vacant given held.loads
      · intro path name there
        rcases (covered path name).mp there with old | ⟨-, own⟩
        · exact (names name).mpr (Or.inl (held.held path name old))
        · exact (names name).mpr (Or.inr own)
      · intro path name
        rw [List.mem_append, new, held.brought, covered]
      · have distinct := ((Value.distinct_dict entries).mp (distinct_fileEntries given)).1
        have fresh : (call.brings fs history.context.imports).Nodup := by
          rw [brings]
          exact distinct.map (Prod.mk_right_injective call.path)
        refine List.nodup_append.mpr ⟨held.once, fresh, ?_⟩
        -- What was brought in before is covered, and the table had room for what is brought in now.
        rintro ⟨path, name⟩ old other later rfl
        obtain ⟨rfl, own⟩ := (new path name).mp later
        exact vacant.not_covered given own ((held.brought _ name).mp old)

theorem ReadOnce.step (readOnce : history.ReadOnce) (fs : FileSystem) (call : ImportCall) :
    (history.step fs call).ReadOnce := by
  have result := call.result_run fs history.context
  unfold ImportHistory.step
  generalize call.run fs history.context = change at result ⊢
  cases result with
  | @failed error after reads imports names =>
      -- From here on nothing is said of reads: the call may have read the file before it failed.
      have failing : history.failures ++ [error] ≠ [] := by simp
      exact ⟨fun none => absurd none failing, fun none => absurd none failing⟩
  | known there whole nothing =>
      dsimp only [Change.done]
      rw [List.append_nil]
      exact ⟨readOnce.unread, readOnce.once⟩
  | @merged entries after vacant given imports names brings =>
      have log : ReadLog.ofPaths (history.reads ++ [call.path]) =
          ReadLog.ofPaths history.reads ++ [call.path] := by
        rw [ReadLog.ofPaths, List.map_append, List.map_singleton, call.normalize_path]
        rfl
      dsimp only
      refine ⟨fun none path there => ?_, fun none path there => ?_⟩
      · dsimp only at there
        rw [imports] at there
        have other : path ≠ call.path := by
          rintro rfl
          obtain ⟨noted, added, -⟩ := exists_value?_addImport vacant
          cases added.symm.trans there
        rw [value?_addImport_of_ne other] at there
        rw [log, List.mem_append, List.mem_singleton, not_or]
        exact ⟨readOnce.unread none path there, other⟩
      · dsimp only at there
        rw [imports] at there
        rw [log, List.count_append]
        by_cases here : path = call.path
        · rw [here] at there ⊢
          have first := readOnce.unread none call.path (vacant.unnoted_of_whole there)
          rw [List.count_eq_zero.mpr first, List.count_singleton_self]
        · rw [value?_addImport_of_ne here] at there
          rw [readOnce.once none path there, List.count_singleton]
          simp [Ne.symm here]

/-- The table of imports is true of what calls came to. -/
structure Faithful (fs : FileSystem) (history : ImportHistory) : Prop where
  noted : history.Noted
  held : history.Held fs
  readOnce : history.ReadOnce

theorem Faithful.step (faithful : history.Faithful fs) (call : ImportCall) :
    (history.step fs call).Faithful fs :=
  ⟨faithful.noted.step fs call, faithful.held.step call, faithful.readOnce.step fs call⟩

theorem faithful_of_fresh {start : Context} (fresh : start.imports = []) :
    Faithful fs { context := start } := by
  have unnoted : ∀ path, Entries.value? path start.imports = none := by simp [fresh]
  have uncovered : ∀ path name, ¬ Covered fs start.imports path name := by
    rintro path name ⟨noted, whole, there, -⟩
    rw [unnoted] at there
    cases there
  refine ⟨⟨?_, fun path => ?_⟩, ⟨?_, ?_, ?_, List.nodup_nil⟩, ⟨?_, ?_⟩⟩
  · rw [fresh]
    exact List.nodup_nil
  · rw [unnoted]
    exact .nothing
  · intro path noted there
    rw [unnoted] at there
    cases there
  · exact fun path name covered => absurd covered (uncovered path name)
  · intro path name
    simp [uncovered path name]
  · simp [ReadLog.ofPaths]
  · intro none path there
    rw [unnoted] at there
    cases there

theorem faithful_after {start : Context} (fresh : start.imports = []) (calls : List ImportCall) :
    (after fs calls start).Faithful fs := by
  have first : Faithful fs { context := start } := faithful_of_fresh fresh
  unfold after
  -- A step keeps any history faithful, so the induction is over the calls from any of them on.
  generalize ({ context := start } : ImportHistory) = history at first
  induction calls generalizing history with
  | nil => exact first
  | cons call rest ih => exact ih _ (first.step call)

/-- After any calls the table has one entry for each file that was asked for, under its normal path,
with what the successful calls asked for. The keys that these brought in are the keys that the table
covers; each was brought in once and is among the variables. A call that fails leaves the table
alone. If none has failed, a file that was imported as a whole was read once, whatever spellings it
was asked for under. -/
theorem importTable_faithful (fs : FileSystem) {start : Context} (fresh : start.imports = [])
    (calls : List ImportCall) :
    let history := after fs calls start
    let table := history.context.imports
    ((Entries.keys table).Nodup ∧ ∀ path ∈ Entries.keys table, Path.normalize path = path) ∧
      (∀ path, Notes (ImportCall.asked history.done path) (Entries.value? path table)) ∧
      (history.brought.Nodup ∧
        ∀ path name, (path, name) ∈ history.brought ↔ Covered fs table path name) ∧
      (∀ (call : ImportCall) (error : ContextError),
        (call.run fs history.context).outcome = .error error →
          (call.run fs history.context).context.imports = table) ∧
      (Loads fs table ∧
        ∀ path name, Covered fs table path name → history.context.contains name = true) ∧
      (history.failures = [] → ∀ spelling,
        Entries.value? (Path.normalize spelling) table = some none →
          (ReadLog.ofPaths history.reads).countOf spelling = 1) := by
  intro history table
  have faithful : history.Faithful fs := faithful_after fresh calls
  refine ⟨⟨faithful.noted.distinct, ?_⟩, faithful.noted.notes,
    ⟨faithful.held.once, faithful.held.brought⟩, ?_, ⟨faithful.held.loads, ?_⟩, ?_⟩
  · exact fun path listed => faithful.noted.normal listed
  · exact fun call error failed => call.imports_of_failed failed
  · intro path name covered
    exact (Entries.has_eq_true_iff name _).mpr (faithful.held.held path name covered)
  · exact fun none spelling whole => faithful.readOnce.once none _ whole

/-- Two files that have one name in common. -/
def sizesFiles : FileSystem :=
  (MemoryFiles.ofListing
    [("lr.json", "\x7b\"lr\": 1\x7d"),
      ("data/sizes.json", "\x7b\"rows\": 3, \"lr\": 5, \"cols\": 4\x7d")] []).fileSystem

/-- A file under two spellings, and keys of another in two calls. -/
def sizesCalls : List ImportCall :=
  [⟨"lr.json", "", false⟩, ⟨"../lr.json", "data", false⟩, ⟨"sizes.json:rows", "data", false⟩,
    ⟨"data/./sizes.json:cols,", "", false⟩]

/-- Among the calls one that finds a key taken by another file. -/
def clashingCalls : List ImportCall :=
  sizesCalls.take 3 ++ ⟨"data/sizes.json:lr", "", false⟩ :: sizesCalls.drop 3

theorem sizesCalls_faithful :
    ({} : Context).imports = [] ∧
      ((after sizesFiles sizesCalls {}).context.imports =
          [("lr.json", none), ("data/sizes.json", some ["rows", "cols"])] ∧
        (after sizesFiles sizesCalls {}).failures = [] ∧
        (ReadLog.ofPaths (after sizesFiles sizesCalls {}).reads).countOf "data/../lr.json" = 1) ∧
      (after sizesFiles clashingCalls {}).failures.length = 1 ∧
      Entries.value? "data/sizes.json" (after sizesFiles clashingCalls {}).context.imports =
        some (some ["rows", "cols"]) ∧
      (after sizesFiles clashingCalls {}).context.contains "cols" = true := by
  have fresh : ({} : Context).imports = [] := rfl
  obtain ⟨table, succeeded⟩ : (after sizesFiles sizesCalls {}).context.imports =
      [("lr.json", none), ("data/sizes.json", some ["rows", "cols"])] ∧
        (after sizesFiles sizesCalls {}).failures = [] := by decide +kernel
  obtain ⟨failed, noted⟩ : (after sizesFiles clashingCalls {}).failures.length = 1 ∧
      Entries.value? "data/sizes.json" (after sizesFiles clashingCalls {}).context.imports =
        some (some ["rows", "cols"]) := by decide +kernel
  have whole : Entries.value? (Path.normalize "data/../lr.json")
      (after sizesFiles sizesCalls {}).context.imports = some none := by
    rw [table]
    decide +kernel
  obtain ⟨-, -, -, -, -, readOnce⟩ := importTable_faithful sizesFiles fresh sizesCalls
  obtain ⟨-, -, -, -, ⟨loads, present⟩, -⟩ := importTable_faithful sizesFiles fresh clashingCalls
  obtain ⟨file, loaded, -⟩ := loads _ _ noted
  have covered : Covered sizesFiles (after sizesFiles clashingCalls {}).context.imports
      "data/sizes.json" "cols" := ⟨_, file, noted, loaded, by simp⟩
  exact ⟨fresh, ⟨table, succeeded, readOnce succeeded _ whole⟩, failed, noted,
    present _ _ covered⟩

end ImportHistory

end StageTemplates
