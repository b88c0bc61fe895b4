import StageTemplates.Json.Writer
import StageTemplates.Text.Blank

set_option autoImplicit false

/-!
The log, read line by line. An entry shows its level on its first line only, so what stands after
a line break in a message is not seen as part of it.
-/
namespace StageTemplates

namespace Log

/-- What stands for a character of a message: control characters that steer a terminal are
written by their numbers. -/
def shown (c : Char) : List Char :=
  let n := c.toNat
  let digits := [Json.hexDigit (n / 16), Json.hexDigit (n % 16)]
  if n = 7 || n = 8 || n = 12 || n = 27 || n = 127 then '\\' :: 'x' :: digits
  else if 0x80 ≤ n && n ≤ 0x9F then '\\' :: 'u' :: '\x7b' :: digits ++ ['\x7d']
  else [c]

/-- The level of warnings. -/
def warningLevel : List Char := ['W', 'A', 'R', 'N']

/-- The lines of a warning. Levels end at the fifth column. -/
def lines (message : String) : List (List Char) :=
  (' ' :: warningLevel ++ ' ' :: message.toList.flatMap shown).splitOn '\n'

/-- What a line says after the level of warnings, without the blanks at its ends. None if the
line does not begin with that level. -/
def said? (line : List Char) : Option String :=
  let line := Text.dropSpaces line
  if warningLevel.isPrefixOf line then
    some (Text.trim (String.ofList (line.drop warningLevel.length)))
  else none

/-- The warnings seen in the log of the messages. -/
def warnings (messages : List String) : List String :=
  messages.flatMap fun message => (lines message).filterMap said?

end Log

end StageTemplates
