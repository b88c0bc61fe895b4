import StageTemplates.Text.Alphanumeric

set_option autoImplicit false

/-!
One word of a command line, between single quotes if it needs them. A single quote within is
written between double quotes.
-/
namespace StageTemplates

namespace Shell

/-- The characters besides letters and digits that stand for themselves. -/
def isSafeMark (c : Char) : Bool := "_@%+=:,./-".toList.contains c

def isSafe (c : Char) : Bool := Text.isAlphanumeric c || isSafeMark c

/-- What stands for a character between single quotes. -/
def quotedChar (c : Char) : List Char :=
  if c = '\'' then ['\'', '"', '\'', '"', '\''] else [c]

def quotedChars (text : List Char) : List Char :=
  match text with
  | [] => ['\'', '\'']
  | text =>
      if text.all isSafe then text
      else '\'' :: (text.flatMap quotedChar ++ ['\''])

def quoted (text : String) : String := String.ofList (quotedChars text.toList)

end Shell

end StageTemplates
