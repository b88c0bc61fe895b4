import StageTemplates.Template.Piece

set_option autoImplicit false

/-!
Key paths: words joined by points, or in square brackets after the first. A word is a run of
characters other than the point and the two brackets.
-/
namespace StageTemplates

/-- What should have stood where a text stops being a key path. -/
inductive Expectation where
  | key
  | endOfText
  | stated (message : String)
deriving DecidableEq, Repr

def Expectation.message : Expectation → String
  | .key => "Expected key"
  | .endOfText => "Expected end of text"
  | .stated message => message

/-- Where a text stops being a key path: a count of characters, and what was expected there. -/
structure SyntaxFault where
  expression : String
  offset : Nat
  expected : Expectation
deriving DecidableEq, Repr

namespace SyntaxFault

def text (fault : SyntaxFault) : String := embrace fault.expression

/-- The place of the fault within the token. -/
def place (fault : SyntaxFault) : Nat := fault.offset + 2

def found (fault : SyntaxFault) : String :=
  match fault.text.toList[fault.place]? with
  | some c => "'" ++ String.singleton c ++ "'"
  | none => "end of text"

/-- The token, a caret below the fault, and what was expected. -/
def message (fault : SyntaxFault) : String :=
  fault.text ++ "\n" ++ String.ofList (List.replicate fault.place ' ') ++ "^\n" ++
    "ParseException: " ++ fault.expected.message ++ ", found " ++ fault.found ++
    "  (at char " ++ toString fault.place ++ "), (line:1, col:" ++
    toString (fault.place + 1) ++ ")"

end SyntaxFault

namespace KeyPath

def isWordChar (c : Char) : Bool := c ≠ '.' && c ≠ '[' && c ≠ ']'

/-- The word at the head of the text; it may be empty. -/
def word (text : List Char) : List Char := text.takeWhile isWordChar

/-- The word of the step that the text begins with, and how many characters the step takes. -/
def step? (text : List Char) : Option (List Char × Nat) :=
  match text with
  | '.' :: rest =>
      match word rest with
      | [] => none
      | found => some (found, found.length + 1)
  | '[' :: rest =>
      match word rest with
      | [] => none
      | found =>
          match rest.drop found.length with
          | ']' :: _ => some (found, found.length + 2)
          | _ => none
  | _ => none

/-- The words of the steps, or the place of the first that is none. The first number counts
characters that belong to the step before them. -/
def steps : (inside place : Nat) → List Char → Except Nat (List (List Char))
  | _, _, [] => .ok []
  | inside + 1, place, _ :: rest => steps inside (place + 1) rest
  | 0, place, c :: rest =>
      match step? (c :: rest) with
      | none => .error place
      | some (found, width) =>
          match steps (width - 1) (place + 1) rest with
          | .ok words => .ok (found :: words)
          | .error place => .error place

/-- The words of a key path. -/
def words (expression : String) : Except SyntaxFault (List (List Char)) :=
  let text := expression.toList
  match word text with
  | [] => .error ⟨expression, 0, .key⟩
  | first =>
      match steps 0 first.length (text.drop first.length) with
      | .ok others => .ok (first :: others)
      | .error place => .error ⟨expression, place, .endOfText⟩

/-- Words with points between them. -/
def dotted (words : List (List Char)) : String :=
  ".".intercalate (words.map String.ofList)

/-- A key path with points only. -/
def parse (expression : String) : Except SyntaxFault String :=
  match words expression with
  | .ok found => .ok (dotted found)
  | .error fault => .error fault

end KeyPath

end StageTemplates
