import StageTemplates.Json.Number

set_option autoImplicit false

/-!
Reading JSON text: strict, at most 127 levels deep, nothing after the value. A repeated key keeps
its first place and takes the last value.
-/
namespace StageTemplates

namespace Json

def isBlank (c : Char) : Bool := c = ' ' || c = '\t' || c = '\n' || c = '\r'

def skipBlanks (text : List Char) : List Char := text.dropWhile isBlank

def hexValue? (c : Char) : Option Nat :=
  if isDigit c then some (c.toNat - 48)
  else if 'a' ≤ c && c ≤ 'f' then some (c.toNat - 87)
  else if 'A' ≤ c && c ≤ 'F' then some (c.toNat - 55)
  else none

def hexNumber? (digits : List Char) : Option Nat :=
  digits.foldlM (fun number c => (hexValue? c).map (number * 16 + ·)) 0

/-- The character that a letter after a backslash stands for. -/
def plainEscape? : Char → Option Char
  | '"' => some '"'
  | '\\' => some '\\'
  | '/' => some '/'
  | 'b' => some (Char.ofNat 8)
  | 'f' => some (Char.ofNat 12)
  | 'n' => some '\n'
  | 'r' => some '\r'
  | 't' => some '\t'
  | _ => none

/-- The character written with `\u`, and how many characters of the text after `\u` it takes. A
pair of surrogates is one character; a surrogate alone is none. -/
def unicodeEscape? (text : List Char) : Option (Char × Nat) := do
  let unit ← if 4 ≤ text.length then hexNumber? (text.take 4) else none
  if 0xD800 ≤ unit && unit < 0xDC00 then
    match text.drop 4 with
    | '\\' :: 'u' :: rest =>
        let low ← if 4 ≤ rest.length then hexNumber? (rest.take 4) else none
        if 0xDC00 ≤ low && low < 0xE000 then
          return (Char.ofNat (0x10000 + (unit - 0xD800) * 0x400 + (low - 0xDC00)), 10)
        else none
    | _ => none
  else if 0xDC00 ≤ unit && unit < 0xE000 then none
  else return (Char.ofNat unit, 4)

/-- The text up to the closing quote, and what follows it. The first number counts characters that
an escape before them has taken already. -/
def stringBody : Nat → List Char → Option (List Char × List Char)
  | _, [] => none
  | taken + 1, _ :: rest => stringBody taken rest
  | 0, c :: rest =>
      if c = '"' then some ([], rest)
      else if c = '\\' then
        match rest with
        | 'u' :: text =>
            match unicodeEscape? text with
            | none => none
            | some (char, used) =>
                (stringBody (used + 1) rest).map fun (body, rest) => (char :: body, rest)
        | letter :: _ =>
            match plainEscape? letter with
            | none => none
            | some char => (stringBody 1 rest).map fun (body, rest) => (char :: body, rest)
        | [] => none
      else if c.toNat < 32 then none
      else (stringBody 0 rest).map fun (body, rest) => (c :: body, rest)

def readString (text : List Char) : Option (String × List Char) :=
  match text with
  | '"' :: rest => (stringBody 0 rest).map fun (body, rest) => (String.ofList body, rest)
  | _ => none

/-- What follows the word at the head of the text. -/
def afterWord : (word text : List Char) → Option (List Char)
  | [], rest => some rest
  | c :: word, d :: rest => if c = d then afterWord word rest else none
  | _ :: _, [] => none

/-- The members up to the closing bracket, with commas between them. -/
def members {α : Type} (member : List Char → Option (α × List Char)) (close : Char) :
    (budget : Nat) → List Char → Option (List α × List Char)
  | 0, _ => none
  | budget + 1, text => do
      let (first, text) ← member (skipBlanks text)
      match skipBlanks text with
      | ',' :: text =>
          let (rest, text) ← members member close budget text
          return (first :: rest, text)
      | c :: text => if c = close then return ([first], text) else none
      | [] => none

/-- The members of a bracket that was just opened. -/
def bracket {α : Type} (member : List Char → Option (α × List Char)) (close : Char)
    (text : List Char) : Option (List α × List Char) :=
  match skipBlanks text with
  | c :: rest => if c = close then some ([], rest) else members member close text.length text
  | [] => none

def entry (value : List Char → Option (Value × List Char)) (text : List Char) :
    Option ((String × Value) × List Char) := do
  let (key, text) ← readString text
  match skipBlanks text with
  | ':' :: text =>
      let (value, text) ← value (skipBlanks text)
      return ((key, value), text)
  | _ => none

/-- Reads a value that holds at most `depth` levels of brackets. -/
def readValue : (depth : Nat) → List Char → Option (Value × List Char)
  | depth, text =>
      match text with
      | '"' :: _ => (readString text).map fun (string, rest) => (.string string, rest)
      | 't' :: rest => (afterWord ['r', 'u', 'e'] rest).map fun rest => (.bool true, rest)
      | 'f' :: rest => (afterWord ['a', 'l', 's', 'e'] rest).map fun rest => (.bool false, rest)
      | 'n' :: rest => (afterWord ['u', 'l', 'l'] rest).map fun rest => (.null, rest)
      | '[' :: rest =>
          match depth with
          | 0 => none
          | depth + 1 =>
              (bracket (readValue depth) ']' rest).map fun (items, rest) => (.list items, rest)
      | '\x7b' :: rest =>
          match depth with
          | 0 => none
          | depth + 1 =>
              (bracket (entry (readValue depth)) '\x7d' rest).map fun (entries, rest) =>
                (.dict (Entries.ofList entries), rest)
      | _ => (readNumber text).map fun (number, rest) => (.scalar number, rest)

def depthLimit : Nat := 127

/-- The value that a whole text holds. -/
def read (text : String) : Option Value :=
  match readValue depthLimit (skipBlanks text.toList) with
  | some (value, rest) => if (skipBlanks rest).isEmpty then some value else none
  | none => none

end Json

end StageTemplates
