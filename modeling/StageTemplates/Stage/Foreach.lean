import StageTemplates.Stage.Entry

set_option autoImplicit false

/-!
Templates that make one stage for each member of a list or a dictionary.
-/
namespace StageTemplates

/-- That names bound by a group hide variables. -/
structure Shadowing where
  names : List String
  group : String
deriving DecidableEq, Repr

def Shadowing.message (shadowing : Shadowing) : String :=
  " and ".intercalate shadowing.names ++ (if shadowing.names.length = 1 then " is" else " are") ++
    " already specified, will be overwritten for stages generated from '" ++ shadowing.group ++ "'"

/-- The name bound to a member, and the one bound to its key in a dictionary. -/
def itemName : String := "item"

def keyName : String := "key"

/-- A template as written in the file `path`: what it runs over, and the fields of its stages. What
is worked out for it once is kept. -/
structure Foreach where
  name : String
  iterable : Value
  body : Entries Value
  path : String
  sectionName : String := stagesSection
  /-- What it runs over, once that is resolved. -/
  members : Option Node := none
  /-- The members under their keys, once they were asked for. -/
  keyedMembers : Option (Entries Node) := none
  /-- Whether the tokens of the body were found to have no fault. -/
  bodyChecked : Bool := false

/-- A template in use, the variables, and the warnings given so far. -/
structure Expansion where
  template : Foreach
  context : Context
  warnings : List Shadowing := []

namespace Foreach

/-- The members under their keys. A list with a list or a dictionary in it is keyed by index, any
other by the text of its items. -/
def keyed : Node → Entries Node
  | .dict entries _ => entries
  | .list items _ =>
      if items.any Node.isContainer then
        Entries.ofList (items.mapIdx fun index item => (toString index, item))
      else Entries.ofList (items.map fun item => (item.toValue.text, item))
  | .scalar _ _ => []

/-- The names that will be bound. -/
def boundNames (members : Node) : List String :=
  itemName :: if members.isDict then [keyName] else []

/-- The warning due when some of the names are variables already. -/
def shadowing? (template : Foreach) (context : Context) (members : Node) : Option Shadowing :=
  match (boundNames members).filter context.contains with
  | [] => none
  | names => some ⟨names, template.name⟩

/-- What is bound while the stage of a member is resolved. -/
def bindings (members : Node) (key : String) (member : Node) : Entries Node :=
  (itemName, member) ::
    if members.isDict then [(keyName, Node.ofLocal (.string key))] else []

/-- The stage of a member, as if written out. -/
def entry (template : Foreach) (key : String) : Entry :=
  { name := memberName template.name key, fields := template.body, path := template.path,
    sectionName := template.sectionName }

/-- A failure of what the template runs over. -/
def iterableError (template : Foreach) (cause : ResolveCause) : ResolveError :=
  ⟨placeOf [template.sectionName, template.name, "foreach"], template.path, cause⟩

def bodyFault? (template : Foreach) : Option ResolveError :=
  fieldFault? template.sectionName template.name template.path template.body

/-- The fields of the stages, if their tokens have no fault. -/
def checkedBody (template : Foreach) : Except ResolveError (Entries Value) :=
  match template.bodyFault? with
  | some error => .error error
  | none => .ok template.body

end Foreach

namespace Expansion

/-- Resolves what the template runs over, unless that is known. -/
def members (state : Expansion) : Except ResolveError Node × Expansion :=
  match state.template.members with
  | some members => (.ok members, state)
  | none =>
      let template := state.template
      match state.context.resolveNode template.iterable none false with
      | (.error error, context) =>
          (.error (template.iterableError (.context error)), { state with context })
      | (.ok members, context) =>
          if members.isContainer then
            (.ok members,
              { template := { template with members := some members }
                context
                warnings := state.warnings ++ (template.shadowing? context members).toList })
          else
            (.error (template.iterableError (.notIterable members.kind)), { state with context })

/-- The members under their keys, unless these are known. -/
def keyed (state : Expansion) : Except ResolveError (Entries Node) × Expansion :=
  match state.template.keyedMembers with
  | some keyed => (.ok keyed, state)
  | none =>
      match state.members with
      | (.error error, state) => (.error error, state)
      | (.ok members, state) =>
          let keyed := Foreach.keyed members
          (.ok keyed, { state with template := { state.template with keyedMembers := some keyed } })

/-- The fields of the stages. Their tokens are checked until they were found to have no fault. -/
def checkedBody (state : Expansion) : Except ResolveError (Entries Value) × Expansion :=
  if state.template.bodyChecked then (.ok state.template.body, state)
  else
    match state.template.checkedBody with
    | .error error => (.error error, state)
    | .ok body => (.ok body, { state with template := { state.template with bodyChecked := true } })

def hasMember (state : Expansion) (key : String) : Except ResolveError Bool × Expansion :=
  match state.keyed with
  | (.error error, state) => (.error error, state)
  | (.ok keyed, state) => (.ok (Entries.has key keyed), state)

/-- The names of all stages of the template. -/
def stageNames (state : Expansion) : Except ResolveError (List String) × Expansion :=
  match state.keyed with
  | (.error error, state) => (.error error, state)
  | (.ok keyed, state) =>
      (.ok ((Entries.keys keyed).map (memberName state.template.name)), state)

/-- Resolves the stage of a member, with the member and its key bound meanwhile. -/
def resolveMember (state : Expansion) (members : Node) (key : String) (member : Node) :
    Except StageError Stage × Expansion :=
  match state.checkedBody with
  | (.error error, state) => (.error (.resolve error), state)
  | (.ok body, state) =>
      let entry := { state.template.entry key with fields := body }
      let (inner, undo) := state.context.bind (Foreach.bindings members key member) true
      let (outcome, inner) := entry.evaluate inner true
      let state := { state with context := inner.unbind undo }
      match outcome with
      | .error error => (.error (.resolve error), state)
      | .ok stage => (.ok stage, state)

/-- Resolves the stage of the member with this key. -/
def resolveOne (state : Expansion) (key : String) : Except StageError Stage × Expansion :=
  match state.keyed with
  | (.error error, state) => (.error (.resolve error), state)
  | (.ok keyed, state) =>
      match Entries.value? key keyed with
      | none => (.error (.notFound (.member key state.template.name)), state)
      | some member =>
          match state.members with
          | (.error error, state) => (.error (.resolve error), state)
          | (.ok members, state) => state.resolveMember members key member

def resolveEach : (keys : List String) → Entries Value → Expansion →
    Except StageError (Entries Value) × Expansion
  | [], done, state => (.ok done, state)
  | key :: rest, done, state =>
      match state.resolveOne key with
      | (.error error, state) => (.error error, state)
      | (.ok stage, state) =>
          resolveEach rest (Entries.put stage.name (.dict stage.fields) done) state

/-- Resolves the stages of all members, up to the first that fails. -/
def resolveAll (state : Expansion) : Except StageError (Entries Value) × Expansion :=
  match state.keyed with
  | (.error error, state) => (.error (.resolve error), state)
  | (.ok keyed, state) => resolveEach (Entries.keys keyed) [] state

end Expansion

end StageTemplates
