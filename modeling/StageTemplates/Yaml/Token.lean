set_option autoImplicit false

/-!
The tokens of a YAML stream.
-/
namespace StageTemplates

namespace Yaml

/-- A tag may hold escaped bytes, so its text is bytes. -/
abbrev TagText := List UInt8

namespace TagText

def ofChars (text : List Char) : TagText := text.map fun c => c.toNat.toUInt8

/-- A zero byte ends the text. -/
def untilZero (text : TagText) : TagText := text.takeWhile (· ≠ 0)

end TagText

inductive Token where
  | version (major minor : Nat)
  | tagShorthand (handle : List Char) (expansion : TagText)
  | documentStart
  | documentEnd
  | blockSequenceStart
  | blockMappingStart
  | blockEnd
  | flowSequenceStart
  | flowSequenceEnd
  | flowMappingStart
  | flowMappingEnd
  | blockEntry
  | flowEntry
  | key
  | value
  | alias (name : List Char)
  | anchor (name : List Char)
  | tag (handle : List Char) (suffix : TagText)
  | scalar (text : List Char) (plain : Bool)
deriving DecidableEq, Repr

end Yaml

end StageTemplates
