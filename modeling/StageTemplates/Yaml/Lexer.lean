import StageTemplates.Yaml.TagSyntax

set_option autoImplicit false

/-!
From characters to tokens. Indentation opens and closes block collections; a mapping key without a
mark of its own is known as one when its colon comes, and its token is then put in before it.
-/
namespace StageTemplates

namespace Yaml

/-- A place where a mapping key without a mark may have begun. -/
structure PossibleKey where
  /-- Whether nothing else may stand there. -/
  required : Bool
  /-- How many tokens come before it. -/
  index : Nat
  line : Nat
  column : Nat
  offset : Nat

structure Lexer where
  rest : List Spot
  /-- The tokens so far, the last one first. -/
  tokens : List Token := []
  count : Nat := 0
  /-- How many flow collections are open. -/
  flow : Nat := 0
  /-- The column of the innermost block collection. -/
  indent : Int := -1
  outerIndents : List Int := []
  /-- Whether a key without a mark may begin here. -/
  keyAllowed : Bool := true
  /-- The possible key at each level of flow collections, innermost first. -/
  keys : List (Option PossibleKey) := [none]

namespace Lexer

def inFlow (lexer : Lexer) : Bool := lexer.flow ≠ 0

def emit (lexer : Lexer) (token : Token) : Lexer :=
  { lexer with tokens := token :: lexer.tokens, count := lexer.count + 1 }

/-- Puts a token in after the first `index` tokens. -/
def insertAt (lexer : Lexer) (index : Nat) (token : Token) : Lexer :=
  let later := lexer.count - index
  { lexer with
    tokens := lexer.tokens.take later ++ token :: lexer.tokens.drop later
    count := lexer.count + 1 }

/-- Blanks, comments and line breaks between tokens. Gives whether a key may begin after them. A
tab counts as a blank only where no key may begin. -/
def skipGap (inFlow : Bool) : (keyAllowed comment : Bool) → List Spot → Bool × List Spot
  | keyAllowed, _, [] => (keyAllowed, [])
  | keyAllowed, comment, spot :: rest =>
      if isBreak spot.char then skipGap inFlow (keyAllowed || !inFlow) false rest
      else if comment then skipGap inFlow keyAllowed true rest
      else if spot.column = 0 && spot.char.toNat = 0xFEFF then skipGap inFlow keyAllowed false rest
      else if spot.char = ' ' || (spot.char = '\t' && (inFlow || !keyAllowed)) then
        skipGap inFlow keyAllowed false rest
      else if spot.char = '#' then skipGap inFlow keyAllowed true rest
      else (keyAllowed, spot :: rest)

def skipToToken (lexer : Lexer) : Lexer :=
  let (keyAllowed, rest) := skipGap lexer.inFlow lexer.keyAllowed false lexer.rest
  { lexer with keyAllowed, rest }

/-- Gives up the possible key of the innermost level. -/
def dropKey? (lexer : Lexer) : Option Lexer :=
  match lexer.keys with
  | some key :: outer => if key.required then none else some { lexer with keys := none :: outer }
  | _ => some lexer

/-- Notes that a key may begin at the next character. -/
def noteKey? (lexer : Lexer) (spot : Spot) : Option Lexer :=
  if lexer.keyAllowed then do
    let lexer ← lexer.dropKey?
    let key : PossibleKey :=
      { required := !lexer.inFlow && lexer.indent = spot.column
        index := lexer.count, line := spot.line, column := spot.column
        offset := spot.offset }
    return { lexer with keys := some key :: lexer.keys.drop 1 }
  else some lexer

/-- A key without a mark ends on its line, within 1024 bytes. -/
def PossibleKey.stale (key : PossibleKey) (spot : Spot) : Bool :=
  key.line < spot.line || key.offset + 1024 < spot.offset

def dropStaleKeys? (lexer : Lexer) (spot : Spot) : Option Lexer := do
  let keys ← lexer.keys.mapM fun key? =>
    match key? with
    | some key =>
        if PossibleKey.stale key spot then (if key.required then none else some none)
        else some (some key)
    | none => some none
  return { lexer with keys }

/-- Opens a block collection at `column` if it lies deeper than the one around it. -/
def openBlock (lexer : Lexer) (column : Nat) (index : Nat) (token : Token) : Lexer :=
  if !lexer.inFlow && lexer.indent < column then
    { lexer with indent := column, outerIndents := lexer.indent :: lexer.outerIndents }.insertAt
      index token
  else lexer

/-- The block collections deeper than `column`: their count, and what is around them. -/
def closedBlocks (column : Int) : (indent : Int) → (outer : List Int) → Nat × Int × List Int
  | indent, [] => (0, indent, [])
  | indent, next :: outer =>
      if indent ≤ column then (0, indent, next :: outer)
      else
        let (count, indent, outer) := closedBlocks column next outer
        (count + 1, indent, outer)

/-- Closes the block collections deeper than `column`. -/
def closeBlocks (lexer : Lexer) (column : Int) : Lexer :=
  if lexer.inFlow then lexer
  else
    let (closed, indent, outerIndents) := closedBlocks column lexer.indent lexer.outerIndents
    { lexer with
      indent, outerIndents
      tokens := List.replicate closed Token.blockEnd ++ lexer.tokens
      count := lexer.count + closed }

def advance (lexer : Lexer) (count : Nat) : Lexer :=
  { lexer with rest := lexer.rest.drop count }

/-- A token of one character, after which a key may begin or not. -/
def mark (lexer : Lexer) (keyAllowed : Bool) (token : Token) : Lexer :=
  { (lexer.advance 1).emit token with keyAllowed }

def documentMark? (lexer : Lexer) (token : Token) : Option Lexer := do
  let lexer ← (lexer.closeBlocks (-1)).dropKey?
  return { (lexer.advance 3).emit token with keyAllowed := false }

def directive? (lexer : Lexer) : Option Lexer := do
  let lexer ← (lexer.closeBlocks (-1)).dropKey?
  let (token, rest) ← Yaml.directive? (lexer.rest.drop 1)
  return { lexer.emit token with rest, keyAllowed := false }

def openFlow? (lexer : Lexer) (spot : Spot) (token : Token) : Option Lexer := do
  let lexer ← lexer.noteKey? spot
  return { lexer with flow := lexer.flow + 1, keys := none :: lexer.keys }.mark true token

def closeFlow? (lexer : Lexer) (token : Token) : Option Lexer := do
  let lexer ← lexer.dropKey?
  let lexer :=
    if lexer.inFlow then { lexer with flow := lexer.flow - 1, keys := lexer.keys.drop 1 }
    else lexer
  return lexer.mark false token

def flowEntry? (lexer : Lexer) : Option Lexer := do
  let lexer ← lexer.dropKey?
  return lexer.mark true .flowEntry

def blockEntry? (lexer : Lexer) (spot : Spot) : Option Lexer := do
  if !lexer.inFlow && !lexer.keyAllowed then none
  else
    let lexer ← (lexer.openBlock spot.column lexer.count .blockSequenceStart).dropKey?
    return lexer.mark true .blockEntry

def markedKey? (lexer : Lexer) (spot : Spot) : Option Lexer := do
  if !lexer.inFlow && !lexer.keyAllowed then none
  else
    let lexer ← (lexer.openBlock spot.column lexer.count .blockMappingStart).dropKey?
    return lexer.mark (!lexer.inFlow) .key

/-- A colon makes a key of what the innermost possible key points at. -/
def value? (lexer : Lexer) (spot : Spot) : Option Lexer :=
  match lexer.keys with
  | some key :: outer =>
      let lexer :=
        ({ lexer with keys := none :: outer }.insertAt key.index .key).openBlock key.column
          key.index .blockMappingStart
      some (lexer.mark false .value)
  | _ =>
      if !lexer.inFlow && !lexer.keyAllowed then none
      else
        some ((lexer.openBlock spot.column lexer.count .blockMappingStart).mark
          (!lexer.inFlow) .value)

/-- A token that a key may begin with. -/
def keyable? (lexer : Lexer) (spot : Spot) (read : Option (Token × List Spot)) :
    Option Lexer := do
  let lexer ← lexer.noteKey? spot
  let (token, rest) ← read
  return { lexer.emit token with rest, keyAllowed := false }

def blockScalar? (lexer : Lexer) (folded : Bool) : Option Lexer := do
  let lexer ← lexer.dropKey?
  let (text, rest) ← Yaml.blockScalar? folded lexer.indent (lexer.rest.drop 1)
  return { lexer.emit (.scalar text false) with rest, keyAllowed := true }

def plainScalar? (lexer : Lexer) (spot : Spot) : Option Lexer := do
  let lexer ← lexer.noteKey? spot
  let (text, broken, rest) ← plainText lexer.inFlow (lexer.indent + 1) [] {} lexer.rest
  return { lexer.emit (.scalar text true) with rest, keyAllowed := broken }

/-- The characters that mark something other than a plain scalar. -/
def isIndicator (c : Char) : Bool :=
  c.toNat = 0x60 || "-?:,[]\x7b\x7d#&*!|>'\"%@".toList.contains c

def beginsPlain (inFlow : Bool) (c : Char) (rest : List Spot) : Bool :=
  !(isBlank c || isBreak c || isIndicator c) ||
    (c = '-' && !Spot.next isBlank rest) ||
    (!inFlow && (c = '?' || c = ':') && !Spot.gapNext rest)

/-- Reads the token that begins at the next character. -/
def token? (lexer : Lexer) (spot : Spot) (rest : List Spot) : Option Lexer :=
  let c := spot.char
  let spots := spot :: rest
  if spot.column = 0 && c = '%' then lexer.directive?
  else if Spot.marker '-' spots then lexer.documentMark? .documentStart
  else if Spot.marker '.' spots then lexer.documentMark? .documentEnd
  else if c = '[' then lexer.openFlow? spot .flowSequenceStart
  else if c = '\x7b' then lexer.openFlow? spot .flowMappingStart
  else if c = ']' then lexer.closeFlow? .flowSequenceEnd
  else if c = '\x7d' then lexer.closeFlow? .flowMappingEnd
  else if c = ',' then lexer.flowEntry?
  else if c = '-' && Spot.gapNext rest then lexer.blockEntry? spot
  else if c = '?' && (lexer.inFlow || Spot.gapNext rest) then lexer.markedKey? spot
  else if c = ':' && (lexer.inFlow || Spot.gapNext rest) then lexer.value? spot
  else if c = '*' then
    lexer.keyable? spot ((anchorName? rest).map fun (name, rest) => (.alias name, rest))
  else if c = '&' then
    lexer.keyable? spot ((anchorName? rest).map fun (name, rest) => (.anchor name, rest))
  else if c = '!' then lexer.keyable? spot (tag? lexer.inFlow spots)
  else if c = '|' && !lexer.inFlow then lexer.blockScalar? false
  else if c = '>' && !lexer.inFlow then lexer.blockScalar? true
  else if c = '\'' || c = '"' then
    lexer.keyable? spot
      ((quotedText c 0 [] {} rest).map fun (text, rest) => (.scalar text false, rest))
  else if beginsPlain lexer.inFlow c rest then lexer.plainScalar? spot
  else none

/-- Reads tokens to the end. Each takes at least a character, so `budget` need not exceed their
count by more than one. -/
def run : (budget : Nat) → Lexer → Option (List Token)
  | 0, _ => none
  | budget + 1, lexer =>
      let lexer := lexer.skipToToken
      match lexer.rest with
      | [] => (lexer.closeBlocks (-1)).dropKey?.map fun lexer => lexer.tokens.reverse
      | spot :: rest => do
          let lexer ← lexer.dropStaleKeys? spot
          let lexer ← (lexer.closeBlocks spot.column).token? spot rest
          run budget lexer

end Lexer

/-- The tokens of a text, or none if it is no YAML stream. -/
def Token.ofText? (text : List Char) : Option (List Token) := do
  let spots ← Spot.ofText? text
  Lexer.run (spots.length + 1) { rest := spots }

end Yaml

end StageTemplates
