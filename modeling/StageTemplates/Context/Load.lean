import StageTemplates.Context.Merge
import StageTemplates.Files.VariablesFile
import StageTemplates.Text.Cut

set_option autoImplicit false

/-!
Loading variables from files and from the items of `vars`.
-/
namespace StageTemplates

/-- The outcome of a change to the variables, the context after it, and the files it read. A
failed change keeps what it did before it failed. -/
structure Change where
  outcome : Except ContextError Unit
  context : Context
  reads : List String

namespace Change

def failed (context : Context) (error : ContextError) : Change := ⟨.error error, context, []⟩

def done (context : Context) : Change := ⟨.ok (), context, []⟩

/-- Goes on with the next change if this one did not fail. -/
def andThen (change : Change) (next : Context → Change) : Change :=
  match change.outcome with
  | .error error => ⟨.error error, change.context, change.reads⟩
  | .ok _ =>
      let after := next change.context
      ⟨after.outcome, after.context, change.reads ++ after.reads⟩

end Change

namespace Context

/-- Takes the keys out of a file's entries, in the order of the keys. A key can be taken once. -/
def pick (path : String) :
    (keys : List String) → Entries Value → Except LoadFailure (Entries Value)
  | [], _ => .ok []
  | key :: rest, entries =>
      match Entries.value? key entries with
      | none => .error (.missingKey key path)
      | some value =>
          match pick path rest (Entries.erase key entries) with
          | .ok others => .ok ((key, value) :: others)
          | .error failure => .error failure

/-- The entries of a file, or of them those with the given keys. -/
def fileEntries (fs : FileSystem) (path : String) (keys : Option (List String)) :
    Except LoadFailure (Entries Value) :=
  match VariablesFile.load fs path with
  | .error failure => .error failure
  | .ok (.dict entries) =>
      match keys with
      | some keys => pick path keys entries
      | none => .ok entries
  | .ok value => .error (.noDictionaryIn value.kind path)

/-- The variables of a file, with what was read to get them. -/
def ofFile? (fs : FileSystem) (path : String) (keys : Option (List String)) :
    Except ContextError Context × List String :=
  if !fs.exists? path then (.error (.paramsLoad (.missing path)), [])
  else if fs.isFolder path then (.error (.paramsLoad (.directory path)), [])
  else
    match fileEntries fs path keys with
    | .error failure => (.error (.paramsLoad failure), [path])
    | .ok entries =>
        (.ok { ofEntries (.ofSource path false) entries with imports := [(path, keys)] }, [path])

/-- The path of an item, and the keys after the first colon. An item that names no key stands for
the whole file. -/
def importParts (item : String) : String × Option (List String) :=
  match Text.cutFirst ':' item.toList with
  | none => (item, none)
  | some (path, keys) =>
      match ((keys.splitOn ',').map String.ofList).filter (· ≠ "") with
      | [] => (String.ofList path, none)
      | keys => (String.ofList path, some keys)

/-- Why keys of a file, or all of it, cannot be loaded beside what was loaded of it. -/
def reloadConflict? (item : String) (loaded keys : Option (List String)) :
    Option ReloadConflict :=
  match loaded, keys with
  | some _, none => some (.partLoaded item)
  | none, some _ => some (.wholeLoaded item)
  | some loaded, some keys => if keys.any loaded.contains then some (.partLoaded item) else none
  | none, none => none

/-- The item at fault for touching reserved names. -/
def blamed (item : String) : ContextError → ContextError
  | .reservedKey keys _ => .reservedKey keys (some item)
  | error => error

/-- The imports with the keys of one more. -/
def addImport (imports : Entries (Option (List String))) (path : String)
    (keys : Option (List String)) : Entries (Option (List String)) :=
  match Entries.value? path imports with
  | none => Entries.put path keys imports
  | some none => imports
  | some (some loaded) => Entries.put path (some (loaded ++ keys.getD [])) imports

/-- Loads the file of an item and merges its variables. -/
def importFile (context : Context) (fs : FileSystem) (item path : String)
    (keys : Option (List String)) (overwrite : Bool) : Change :=
  match ofFile? fs path keys with
  | (.error error, reads) => ⟨.error error, context, reads⟩
  | (.ok loaded, reads) =>
      match context.merge loaded overwrite with
      | (.error error, context) => ⟨.error (blamed item error), context, reads⟩
      | (.ok _, context) =>
          ⟨.ok (), { context with imports := addImport context.imports path keys }, reads⟩

/-- Merges what an item names: a path, or a path and keys, from the folder `wdir`. A whole file
that is loaded already is left alone. -/
def mergeFrom (context : Context) (fs : FileSystem) (item wdir : String) (overwrite : Bool) :
    Change :=
  let (path, keys) := importParts item
  let path := Path.normalize (Path.join wdir path)
  match Entries.value? path context.imports with
  | none => context.importFile fs item path keys overwrite
  | some loaded =>
      if loaded.isNone && keys.isNone then .done context
      else
        match reloadConflict? item loaded keys with
        | some conflict => .failed context (.varsAlreadyLoaded conflict)
        | none => context.importFile fs item path keys overwrite

/-- Merges one item of `vars`: the name of a file, or a dictionary of variables. -/
def mergeItem (context : Context) (fs : FileSystem) (wdir stage : String) (index : Nat) :
    Value → Change
  | .scalar (.string item) => context.mergeFrom fs item wdir false
  | .dict entries =>
      let origin := Origin.ofSource (stage ++ "vars[" ++ toString index ++ "]") true
      let (outcome, context) := context.merge (ofEntries origin entries) false
      ⟨outcome, context, []⟩
  | value => .failed context (.paramsLoad (.noSource value.kind))

def mergeItems (fs : FileSystem) (wdir stage : String) :
    (index : Nat) → List Value → Context → Change
  | _, [], context => .done context
  | index, item :: rest, context =>
      (context.mergeItem fs wdir stage index item).andThen
        (mergeItems fs wdir stage (index + 1) rest)

/-- Merges the default file if it is there, then the items in their order. -/
def loadVars (context : Context) (fs : FileSystem) (items : List Value) (wdir : String)
    (stage : Option String) (standard : Option String) : Change :=
  let first :=
    match standard with
    | some file =>
        if fs.exists? (Path.join wdir file) then context.mergeFrom fs file wdir false
        else .done context
    | none => .done context
  let stage :=
    match stage with
    | some name => name ++ "."
    | none => ""
  first.andThen (mergeItems fs wdir stage 0 items)

end Context

end StageTemplates
