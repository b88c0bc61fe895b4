import StageTemplates.Context.Basic

set_option autoImplicit false

/-!
States of a context that are taken back: recording of reads, and bindings of names for a time.
-/
namespace StageTemplates

namespace Context

/-- Begins a fresh record of reads. -/
def beginTracking (context : Context) : Context := { context with tracked := some {} }

/-- Ends the record and goes back to the one before, if there was one. -/
def endTracking (context : Context) (before : Option Tracked) : Tracked × Context :=
  (context.tracked.getD {}, { context with tracked := before })

end Context

/-- What it takes to undo bindings: the names that were new, those that had a value, and those that
were not reserved before. -/
structure Undo where
  added : List String := []
  shadowed : List (String × Node) := []
  reserved : List String := []

namespace Undo

/-- Takes a name out of a list; the last one comes to stand in its place. -/
def release : (key : String) → List String → List String
  | _, [] => []
  | key, name :: rest =>
      if name = key then
        match rest.getLast? with
        | none => []
        | some last => last :: rest.dropLast
      else name :: release key rest

end Undo

namespace Context

/-- Binds one name, noting how to undo it. -/
def bindOne (reserve : Bool) (state : Context × Undo) (binding : String × Node) :
    Context × Undo :=
  let (context, undo) := state
  let (key, node) := binding
  let fresh := reserve && !context.reserved.contains key
  let reserved := if fresh then context.reserved ++ [key] else context.reserved
  let undo := if fresh then { undo with reserved := undo.reserved ++ [key] } else undo
  let undo :=
    match Entries.value? key context.data with
    | some old => { undo with shadowed := undo.shadowed ++ [(key, old)] }
    | none => { undo with added := undo.added ++ [key] }
  ({ context with data := Entries.put key node context.data, reserved }, undo)

/-- Binds names until `unbind`. With `reserve` they cannot be merged over meanwhile. -/
def bind (context : Context) (bindings : Entries Node) (reserve : Bool) : Context × Undo :=
  bindings.foldl (bindOne reserve) (context, {})

/-- Takes new names out, the last one first, and gives shadowed names their values back. -/
def unbind (context : Context) (undo : Undo) : Context :=
  let reserved := undo.reserved.foldl (fun names key => Undo.release key names) context.reserved
  let data := undo.added.reverse.foldl (fun data key => Entries.swapRemove key data) context.data
  { context with data := Entries.putAll data undo.shadowed, reserved }

end Context

end StageTemplates
