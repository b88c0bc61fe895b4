set_option autoImplicit false

/-!
Text cut into literal characters and variable tokens. A token opens with a dollar sign and a brace,
ends with the first closing brace on its line, and does not stand right after a backslash.
-/
namespace StageTemplates

inductive Piece where
  | char (c : Char)
  | token (inner : List Char)
deriving DecidableEq, Repr

namespace Piece

/-- What stands before the first closing brace, if no line ends before it. -/
def untilBrace? : List Char → Option (List Char)
  | [] => none
  | c :: rest =>
      if c = '\x7d' then some []
      else if c = '\n' then none
      else (untilBrace? rest).map (c :: ·)

theorem untilBrace?_eq_some {text inner : List Char} (found : untilBrace? text = some inner) :
    (∃ rest, text = inner ++ '\x7d' :: rest) ∧ '\x7d' ∉ inner ∧ '\n' ∉ inner := by
  induction text generalizing inner with
  | nil => simp [untilBrace?] at found
  | cons c rest ih =>
      by_cases brace : c = '\x7d'
      · simp only [untilBrace?, brace, if_true, Option.some.injEq] at found
        subst found
        simp [brace]
      · by_cases ends : c = '\n'
        · simp [untilBrace?, ends] at found
        · simp only [untilBrace?, brace, ends, if_false, Option.map_eq_some_iff] at found
          obtain ⟨tail, found, rfl⟩ := found
          obtain ⟨⟨after, split⟩, noBrace, noEnd⟩ := ih found
          exact ⟨⟨after, by simp [split]⟩, by simp [noBrace, Ne.symm brace],
            by simp [noEnd, Ne.symm ends]⟩

/-- The text inside the token that the text begins with, escaped or not. -/
def opened? : List Char → Option (List Char)
  | '$' :: '\x7b' :: rest => untilBrace? rest
  | _ => none

theorem opened?_eq_some {text inner : List Char} (found : opened? text = some inner) :
    (∃ rest, text = '$' :: '\x7b' :: (inner ++ '\x7d' :: rest)) ∧
      '\x7d' ∉ inner ∧ '\n' ∉ inner := by
  unfold opened? at found
  split at found
  · next rest =>
      obtain ⟨⟨after, split⟩, absent⟩ := untilBrace?_eq_some found
      exact ⟨⟨after, by rw [split]⟩, absent⟩
  · simp at found

/-- Cuts the text up. The number counts characters that belong to the token before them; the flag
says whether a backslash comes right before. -/
def cut : Nat → Bool → List Char → List Piece
  | _, _, [] => []
  | inside + 1, _, c :: rest => cut inside (c = '\\') rest
  | 0, escaped, c :: rest =>
      match opened? (c :: rest) with
      | some inner =>
          if escaped then char c :: cut 0 (c = '\\') rest
          else token inner :: cut (inner.length + 2) false rest
      | none => char c :: cut 0 (c = '\\') rest

/-- The pieces of a text. -/
def ofText (text : List Char) : List Piece := cut 0 false text

def text : Piece → List Char
  | char c => [c]
  | token inner => '$' :: '\x7b' :: (inner ++ ['\x7d'])

/-- Nothing is lost in the cutting. -/
theorem flatMap_text_cut (inside : Nat) (escaped : Bool) (text : List Char) :
    (cut inside escaped text).flatMap Piece.text = text.drop inside := by
  induction text generalizing inside escaped with
  | nil => simp [cut]
  | cons c rest ih =>
      cases inside with
      | succ inside => simp [cut, ih]
      | zero =>
          simp only [cut, List.drop_zero]
          split
          · next inner found =>
              obtain ⟨⟨after, split⟩, -⟩ := opened?_eq_some found
              obtain ⟨rfl, rfl⟩ := List.cons.inj split
              cases escaped <;> simp [ih, Piece.text, List.drop_append]
          · simp [ih, Piece.text]

theorem flatMap_text_ofText (text : List Char) : (ofText text).flatMap Piece.text = text :=
  flatMap_text_cut 0 false text

def isToken : Piece → Bool
  | char _ => false
  | token _ => true

/-- How many bytes the piece takes. -/
def byteWidth (piece : Piece) : Nat := (String.ofList piece.text).utf8ByteSize

/-- The text inside a token that is all there is. -/
def alone? : List Piece → Option (List Char)
  | [token inner] => some inner
  | _ => none

end Piece

/-- A token at its place in a text, in bytes. -/
structure Token where
  start : Nat
  stop : Nat
  inner : String
deriving DecidableEq, Repr

namespace Token

def ofPieces : (start : Nat) → List Piece → List Token
  | _, [] => []
  | start, piece :: rest =>
      let stop := start + piece.byteWidth
      match piece with
      | .char _ => ofPieces stop rest
      | .token inner => ⟨start, stop, String.ofList inner⟩ :: ofPieces stop rest

/-- The tokens of a text in their order. -/
def ofText (text : String) : List Token := ofPieces 0 (Piece.ofText text.toList)

end Token

/-- Whether a text holds a token. -/
def hasToken (text : String) : Bool := (Piece.ofText text.toList).any Piece.isToken

/-- Whether a text is one token and nothing else. -/
def isOneToken (text : String) : Bool := (Piece.alone? (Piece.ofText text.toList)).isSome

/-- An expression between the braces of a token. -/
def embrace (expression : String) : String := "$\x7b" ++ expression ++ "\x7d"

/-- The text with the backslash taken from every escaped token mark. -/
def unescapeChars : List Char → List Char
  | '\\' :: '$' :: '\x7b' :: rest => '$' :: '\x7b' :: unescapeChars rest
  | c :: rest => c :: unescapeChars rest
  | [] => []

def unescape (text : String) : String := String.ofList (unescapeChars text.toList)

end StageTemplates
