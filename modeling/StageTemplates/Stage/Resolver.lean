import StageTemplates.Context.Load
import StageTemplates.Stage.Definition

set_option autoImplicit false

/-!
A document: its variables, its stages by name, and what was read for each stage resolved.
-/
namespace StageTemplates

/-- The file that holds a document, in its folder. -/
def documentFile : String := "dvc.yaml"

/-- The variables file that is loaded without being named. -/
def standardVariables : String := "params.yaml"

def varsSection : String := "vars"

/-- A document whose `vars` section is left out when it is empty. -/
def documentOf (vars : List Value) (stages : Entries Value) : Value :=
  .dict ((if vars.isEmpty then [] else [(varsSection, .list vars)]) ++
    [(stagesSection, .dict stages)])

structure Resolver where
  wdir : String
  /-- The path of the document, for messages. -/
  path : String
  context : Context
  definitions : Entries Definition
  tracked : Entries Tracked := []
  warnings : List Shadowing := []

namespace Resolver

/-- The folder of a document as seen from the current one, which is empty for the current one
itself. It stays as it is if the current one cannot be told. -/
def relativeFolder (wdir : String) (current : Option String) : String :=
  if Path.isAbsolute wdir then
    match current with
    | none => wdir
    | some current =>
        let way := Path.relative wdir current
        if way = "." then "" else way
  else wdir

/-- The sections of a document; null counts as an empty one. -/
def sections? (path : String) : Value → Except ResolveError (Entries Value)
  | .dict entries => .ok entries
  | .scalar .null => .ok []
  | other => .error ⟨path, path, .invalidDefinition (.noDictionary other.kind)⟩

def varsPlace : String := placeOf [varsSection]

/-- The items of the `vars` section, in which no token may stand. -/
def varsItems? (path : String) (document : Entries Value) :
    Except ResolveError (List Value) :=
  let items : Except ResolveError (List Value) :=
    match Entries.value? varsSection document with
    | none => .ok []
    | some (.scalar .null) => .ok []
    | some (.list items) => .ok items
    | some other => .error ⟨varsPlace, path, .invalidDefinition (.noList other.kind)⟩
  match items with
  | .error error => .error error
  | .ok items =>
      if items.any Value.interpolated then
        .error ⟨varsPlace, path, .interpolationNotAllowed⟩
      else .ok items

def definitionsOf? (path : String) :
    List (String × Value) → Except ResolveError (Entries Definition)
  | [] => .ok []
  | (name, body) :: rest =>
      match Definition.ofBody? name body path with
      | .error error => .error error
      | .ok definition =>
          match definitionsOf? path rest with
          | .error error => .error error
          | .ok others => .ok ((name, definition) :: others)

/-- The definitions of the `stages` section. -/
def stages? (path : String) (document : Entries Value) :
    Except ResolveError (Entries Definition) :=
  match Entries.value? stagesSection document with
  | none => .ok []
  | some (.scalar .null) => .ok []
  | some (.dict stages) => definitionsOf? path stages
  | some other =>
      .error ⟨placeOf [stagesSection], path, .invalidDefinition (.noDictionary other.kind)⟩

/-- A resolver for a document in the folder `wdir`, with the files that were read to make it. The
variables are loaded first, then the stages are looked at. -/
def ofDocument? (fs : FileSystem) (current : Option String) (wdir : String) (document : Value)
    (style : Style) : Except ResolveError Resolver × List String :=
  let wdir := relativeFolder wdir current
  let path := Path.normalize (Path.join wdir documentFile)
  match sections? path document with
  | .error error => (.error error, [])
  | .ok document =>
      match varsItems? path document with
      | .error error => (.error error, [])
      | .ok items =>
          let loaded := ({ style } : Context).loadVars fs items wdir none standardVariables
          match loaded.outcome with
          | .error error => (.error ⟨varsPlace, path, .context error⟩, loaded.reads)
          | .ok _ =>
              match stages? path document with
              | .error error => (.error error, loaded.reads)
              | .ok definitions =>
                  (.ok { wdir, path, context := loaded.context, definitions }, loaded.reads)

variable {α : Type}

/-- Uses the template of a group, and keeps what that changes. -/
def expand (resolver : Resolver) (group : String) (template : Foreach)
    (use : Expansion → α × Expansion) : α × Resolver :=
  let (result, state) := use ⟨template, resolver.context, resolver.warnings⟩
  (result,
    { resolver with
      context := state.context
      definitions := Entries.put group (.foreach state.template) resolver.definitions
      warnings := state.warnings })

/-- Records what was read for a stage. -/
def track (resolver : Resolver) (name : String) (tracked : Tracked) : Resolver :=
  { resolver with tracked := Entries.put name tracked resolver.tracked }

/-- Keeps the record of a stage that was resolved. -/
def kept : Except StageError Stage × Resolver → Except StageError Stage × Resolver
  | (.ok stage, resolver) => (.ok stage, resolver.track stage.name stage.tracked)
  | (.error error, resolver) => (.error error, resolver)

def resolveEntry (resolver : Resolver) (entry : Entry) : Except StageError Stage × Resolver :=
  match entry.resolve resolver.context with
  | (.error error, context) => (.error (.resolve error), { resolver with context })
  | (.ok stage, context) => (.ok stage, { resolver with context })

/-- Resolves a member of a group, if it is one. -/
def resolveMember (resolver : Resolver) (group : String) (template : Foreach)
    (key name : String) : Except StageError Stage × Resolver :=
  resolver.expand group template fun state =>
    match state.hasMember key with
    | (.error error, state) => (.error (.resolve error), state)
    | (.ok false, state) => (.error (.notFound (.stage name)), state)
    | (.ok true, state) => state.resolveOne key

/-- Resolves the stage of this name. -/
def resolveOne (resolver : Resolver) (name : String) : Except StageError Stage × Resolver :=
  let (group, key) := splitName name
  match Entries.value? group resolver.definitions, key with
  | some (.entry entry), none => kept (resolver.resolveEntry entry)
  | some (.foreach template), some key => kept (resolver.resolveMember group template key name)
  | _, _ => (.error (.notFound (.stage name)), resolver)

/-- Whether there is a stage of this name. -/
def hasStage (resolver : Resolver) (name : String) : Except ResolveError Bool × Resolver :=
  let (group, key) := splitName name
  match Entries.value? group resolver.definitions, key with
  | some (.entry _), none => (.ok true, resolver)
  | some (.foreach template), some key =>
      resolver.expand group template fun state => state.hasMember key
  | _, _ => (.ok false, resolver)

/-- The names of the stages that the definitions give. -/
def namesOf : List (String × Definition) → Resolver →
    Except ResolveError (List String) × Resolver
  | [], resolver => (.ok [], resolver)
  | (name, .entry _) :: rest, resolver =>
      match namesOf rest resolver with
      | (.error error, resolver) => (.error error, resolver)
      | (.ok names, resolver) => (.ok (name :: names), resolver)
  | (name, .foreach template) :: rest, resolver =>
      match resolver.expand name template Expansion.stageNames with
      | (.error error, resolver) => (.error error, resolver)
      | (.ok first, resolver) =>
          match namesOf rest resolver with
          | (.error error, resolver) => (.error error, resolver)
          | (.ok names, resolver) => (.ok (first ++ names), resolver)

/-- The names of all stages, in the order of the document. -/
def stageNames (resolver : Resolver) : Except ResolveError (List String) × Resolver :=
  namesOf resolver.definitions resolver

def resolveEach : (names : List String) → Entries Value → Resolver →
    Except StageError (Entries Value) × Resolver
  | [], done, resolver => (.ok done, resolver)
  | name :: rest, done, resolver =>
      match resolver.resolveOne name with
      | (.error error, resolver) => (.error error, resolver)
      | (.ok stage, resolver) =>
          resolveEach rest (Entries.put stage.name (.dict stage.fields) done) resolver

/-- Resolves all stages, up to the first that fails. -/
def resolve (resolver : Resolver) : Except StageError Value × Resolver :=
  match resolver.stageNames with
  | (.error error, resolver) => (.error (.resolve error), resolver)
  | (.ok names, resolver) =>
      match resolveEach names [] resolver with
      | (.error error, resolver) => (.error error, resolver)
      | (.ok stages, resolver) => (.ok (.dict [(stagesSection, .dict stages)]), resolver)

end Resolver

end StageTemplates
