set_option autoImplicit false

/-!
The characters of a YAML stream, each with its place. Every spelling of a line break but
the two Unicode separators is written as one line feed.
-/
namespace StageTemplates

namespace Yaml

/-- A character at its place, counted from zero: the line, the characters before it on the line, and
the bytes before it in the stream. -/
structure Spot where
  char : Char
  line : Nat
  column : Nat
  offset : Nat

/-- The characters that a stream may hold. -/
def isPrintable (c : Char) : Bool :=
  let n := c.toNat
  n = 9 || n = 10 || n = 13 || (0x20 ≤ n && n ≤ 0x7E) || n = 0x85 ||
    (0xA0 ≤ n && n ≤ 0xFFFD) || 0x10000 ≤ n

def isBlank (c : Char) : Bool := c = ' ' || c = '\t'

/-- A line break, once the spellings of the line feed are joined. -/
def isBreak (c : Char) : Bool := c = '\n' || c.toNat = 0x2028 || c.toNat = 0x2029

def isDigit (c : Char) : Bool := '0' ≤ c && c ≤ '9'

/-- The characters of names: ASCII letters and digits, the underscore and the hyphen. -/
def isWord (c : Char) : Bool :=
  isDigit c || ('A' ≤ c && c ≤ 'Z') || ('a' ≤ c && c ≤ 'z') || c = '_' || c = '-'

namespace Spot

def placed : (line column offset : Nat) → List Char → List Spot
  | _, _, _, [] => []
  | line, column, offset, '\r' :: '\n' :: rest =>
      ⟨'\n', line, column, offset⟩ :: placed (line + 1) 0 (offset + 2) rest
  | line, column, offset, c :: rest =>
      let after := offset + c.utf8Size
      if c = '\r' || c = '\n' || c.toNat = 0x85 then
        ⟨'\n', line, column, offset⟩ :: placed (line + 1) 0 after rest
      else if isBreak c then ⟨c, line, column, offset⟩ :: placed (line + 1) 0 after rest
      else ⟨c, line, column, offset⟩ :: placed line (column + 1) after rest

def ofText? (text : List Char) : Option (List Spot) :=
  if text.all isPrintable then some (placed 0 0 0 text) else none

/-- Whether the next character meets the test. -/
def next (test : Char → Bool) : List Spot → Bool
  | [] => false
  | spot :: _ => test spot.char

/-- Whether a blank, a line break or the end comes next. -/
def gapNext : List Spot → Bool
  | [] => true
  | spot :: _ => isBlank spot.char || isBreak spot.char

def skipBlanks (spots : List Spot) : List Spot := spots.dropWhile fun spot => isBlank spot.char

/-- What is left from the end of the line on. -/
def skipLine (spots : List Spot) : List Spot := spots.dropWhile fun spot => !isBreak spot.char

/-- Skips blanks and a comment up to the line break, past it, too. None if anything else stands
there. -/
def endOfLine? (spots : List Spot) : Option (List Spot) :=
  let spots := skipBlanks spots
  let spots := if next (· = '#') spots then skipLine spots else spots
  match spots with
  | [] => some []
  | spot :: rest => if isBreak spot.char then some rest else none

/-- Three equal characters in column zero, with a gap behind them. -/
def marker (c : Char) : List Spot → Bool
  | a :: b :: d :: rest =>
      a.column = 0 && a.char = c && b.char = c && d.char = c && gapNext rest
  | _ => false

def documentMarker (spots : List Spot) : Bool := marker '-' spots || marker '.' spots

end Spot

end Yaml

end StageTemplates
