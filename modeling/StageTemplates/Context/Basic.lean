import StageTemplates.Context.Node
import StageTemplates.Error
import StageTemplates.Shell.Style

set_option autoImplicit false

/-!
The variables of a document, and the record of those that were read.
-/
namespace StageTemplates

/-- A variable that was read: its name, and what its path led to. -/
structure Read where
  name : String
  node : Node

/-- The variables that were read: their names in the order of first reading, and for each file the
paths and values read from it. -/
structure Tracked where
  keys : List String := []
  sources : Entries (Entries Value) := []
deriving Inhabited

namespace Tracked

def isEmpty (tracked : Tracked) : Bool := tracked.keys.isEmpty

def addKey (key : String) (keys : List String) : List String :=
  if keys.contains key then keys else keys ++ [key]

def record (tracked : Tracked) (read : Read) : Tracked :=
  let keys := addKey read.name tracked.keys
  if read.node.origin.isLocal then { tracked with keys }
  else
    match read.node.report? with
    | none => { tracked with keys }
    | some (source, path) =>
        let values := (Entries.value? source tracked.sources).getD []
        { keys
          sources :=
            Entries.put source (Entries.put path read.node.toValue values) tracked.sources }

def recordAll (tracked : Tracked) (reads : List Read) : Tracked := reads.foldl record tracked

@[simp] theorem recordAll_nil (tracked : Tracked) : tracked.recordAll [] = tracked := rfl

theorem recordAll_append (tracked : Tracked) (first second : List Read) :
    tracked.recordAll (first ++ second) = (tracked.recordAll first).recordAll second := by
  simp only [recordAll, List.foldl_append]

end Tracked

/-- Variables by name. The imports name the files loaded, with the keys taken from each, or none
for a whole file. Reserved names cannot be merged over. -/
structure Context where
  data : Entries Node := []
  origin : Origin := {}
  imports : Entries (Option (List String)) := []
  reserved : List String := []
  tracked : Option Tracked := none
  style : Style := {}
deriving Inhabited

namespace Context

def ofEntries (origin : Origin) (entries : List (String × Value)) : Context :=
  { data := Node.ofEntries origin entries, origin }

/-- The entries of a dictionary as local variables. -/
def ofValue? : Value → Except ContextError Context
  | .dict entries => .ok (ofEntries {} entries)
  | value => .error (.paramsLoad (.noDictionary value.kind))

def withStyle (context : Context) (style : Style) : Context := { context with style }

def get? (context : Context) (key : String) : Option Node := Entries.value? key context.data

def contains (context : Context) (key : String) : Bool := Entries.has key context.data

def keys (context : Context) : List String := Entries.keys context.data

def toValue (context : Context) : Value := .dict (Node.toEntries context.data)

/-- Whether the variables are the entries of a value. -/
def same (context : Context) (value : Value) : Bool := context.toValue.same value

/-- Notes reads if reads are being recorded. -/
def recorded (context : Context) (reads : List Read) : Context :=
  { context with tracked := context.tracked.map (·.recordAll reads) }

@[simp] theorem data_recorded (context : Context) (reads : List Read) :
    (context.recorded reads).data = context.data := rfl

@[simp] theorem recorded_nil (context : Context) : context.recorded [] = context := by
  cases context with
  | mk data origin imports reserved tracked style => cases tracked <;> rfl

theorem recorded_append (context : Context) (first second : List Read) :
    context.recorded (first ++ second) = (context.recorded first).recorded second := by
  cases context with
  | mk data origin imports reserved tracked style =>
      cases tracked <;> simp [recorded, Tracked.recordAll_append]

end Context

end StageTemplates
