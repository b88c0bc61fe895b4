import StageTemplates.Context.Basic

set_option autoImplicit false

/-!
Merging variables. Dictionaries on both sides are merged entry by entry; anything else on both
sides is a conflict, or is overwritten. A conflict stops the merge, and what was merged before it
stays.
-/
namespace StageTemplates

/-- Why a node cannot take the place of another. -/
def MergeConflict.between (key : String) (present added : Node) : MergeConflict :=
  match present.origin.source, added.origin.source with
  | some old, some new => .inFiles added.origin.dotted new old
  | _, _ => .defined key

namespace Node

/-- What becomes of a node when one that does not merge with it comes to its place. -/
def replaced (overwrite : Bool) (key : String) (present added : Node) :
    Node × Option ContextError :=
  if overwrite then (added, none)
  else (present, some (.merge key (.between key present added)))

mutual

/-- What becomes of a node when another comes to its place. -/
def merge (overwrite : Bool) (key : String) (present : Node) :
    Node → Node × Option ContextError
  | .dict added origin =>
      match present with
      | .dict entries kept =>
          let merged := mergeEntries overwrite entries added
          (.dict merged.1 kept, merged.2)
      | present => replaced overwrite key present (.dict added origin)
  | .list items origin => replaced overwrite key present (.list items origin)
  | .scalar value origin => replaced overwrite key present (.scalar value origin)
termination_by structural added => added

def mergeEntries (overwrite : Bool) (into : Entries Node) :
    List (String × Node) → Entries Node × Option ContextError
  | [] => (into, none)
  | (key, added) :: rest =>
      match Entries.value? key into with
      | none => mergeEntries overwrite (into ++ [(key, added)]) rest
      | some present =>
          let merged := merge overwrite key present added
          let into := Entries.put key merged.1 into
          match merged.2 with
          | none => mergeEntries overwrite into rest
          | some error => (into, some error)
termination_by structural added => added

end

end Node

namespace Context

/-- The reserved names that an update would touch. -/
def touched (context update : Context) : List String := context.reserved.filter update.contains

/-- Merges the variables of another context into this one. -/
def merge (context update : Context) (overwrite : Bool) :
    Except ContextError Unit × Context :=
  match context.touched update with
  | [] =>
      let (data, error?) := Node.mergeEntries overwrite context.data update.data
      let context := { context with data }
      match error? with
      | none => (.ok (), context)
      | some error => (.error error, context)
  | keys => (.error (.reservedKey keys none), context)

end Context

end StageTemplates
