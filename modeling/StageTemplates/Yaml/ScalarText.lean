import StageTemplates.Yaml.Spot

set_option autoImplicit false

/-!
The text of plain, quoted and block scalars. Between two runs of text one line break counts as a
space, and of several all but the first are kept.
-/
namespace StageTemplates

namespace Yaml

/-- What stands between two runs of text. Its lists are held backwards. -/
structure Fold where
  /-- Blanks before any line break. -/
  blanks : List Char := []
  broken : Bool := false
  /-- The first line break; none for an escaped one. -/
  first : List Char := []
  /-- The line breaks after the first. -/
  more : List Char := []

namespace Fold

def isEmpty (fold : Fold) : Bool := fold.blanks.isEmpty && !fold.broken

def addBlank (fold : Fold) (c : Char) : Fold :=
  if fold.broken then fold else { fold with blanks := c :: fold.blanks }

def addBreak (fold : Fold) (c : Char) : Fold :=
  if fold.broken then { fold with more := c :: fold.more }
  else { fold with broken := true, first := [c] }

/-- What it contributes to the text, backwards. -/
def joined (fold : Fold) : List Char :=
  if !fold.broken then fold.blanks
  else if fold.first = ['\n'] then
    if fold.more.isEmpty then [' '] else fold.more
  else fold.more ++ fold.first

end Fold

def isFlowIndicator (c : Char) : Bool :=
  c = ',' || c = '[' || c = ']' || c = '\x7b' || c = '\x7d'

/-- Reads a plain scalar: its text, whether a line break follows it, and what is left. Lines after
the first are indented by at least `indent`. -/
def plainText (inFlow : Bool) (indent : Int) :
    (text : List Char) → Fold → List Spot → Option (List Char × Bool × List Spot)
  | text, fold, [] => some (text.reverse, fold.broken, [])
  | text, fold, spot :: rest =>
      let c := spot.char
      if isBlank c then
        if fold.broken && c = '\t' && (spot.column : Int) < indent then none
        else plainText inFlow indent text (fold.addBlank c) rest
      else if isBreak c then plainText inFlow indent text (fold.addBreak c) rest
      else if !fold.isEmpty && (c = '#' || Spot.documentMarker (spot :: rest) ||
          (!inFlow && (spot.column : Int) < indent)) then
        some (text.reverse, fold.broken, spot :: rest)
      else if inFlow && c = ':' && Spot.next (fun d => isFlowIndicator d || d = '?') rest then none
      else if (c = ':' && Spot.gapNext rest) || (inFlow && isFlowIndicator c) then
        some (text.reverse, fold.broken, spot :: rest)
      else plainText inFlow indent (c :: (fold.joined ++ text)) {} rest

def hexValue? (c : Char) : Option Nat :=
  if isDigit c then some (c.toNat - 48)
  else if 'a' ≤ c && c ≤ 'f' then some (c.toNat - 87)
  else if 'A' ≤ c && c ≤ 'F' then some (c.toNat - 55)
  else none

def hexNumber? (digits : List Char) : Option Nat :=
  digits.foldlM (fun number c => (hexValue? c).map (number * 16 + ·)) 0

/-- The character that a letter after a backslash stands for. -/
def plainEscape? (c : Char) : Option Char :=
  match c with
  | '0' => some (Char.ofNat 0)
  | 'a' => some (Char.ofNat 7)
  | 'b' => some (Char.ofNat 8)
  | 't' => some '\t'
  | '\t' => some '\t'
  | 'n' => some '\n'
  | 'v' => some (Char.ofNat 11)
  | 'f' => some (Char.ofNat 12)
  | 'r' => some '\r'
  | 'e' => some (Char.ofNat 27)
  | ' ' => some ' '
  | '"' => some '"'
  | '/' => some '/'
  | '\\' => some '\\'
  | 'N' => some (Char.ofNat 0x85)
  | '_' => some (Char.ofNat 0xA0)
  | 'L' => some (Char.ofNat 0x2028)
  | 'P' => some (Char.ofNat 0x2029)
  | _ => none

/-- How many hexadecimal digits follow a letter after a backslash. -/
def escapeWidth? (c : Char) : Option Nat :=
  match c with
  | 'x' => some 2
  | 'u' => some 4
  | 'U' => some 8
  | _ => none

/-- The character of an escape whose backslash was read, and how many characters it takes. -/
def escape? (spots : List Spot) : Option (Char × Nat) :=
  match spots with
  | [] => none
  | letter :: rest =>
      match escapeWidth? letter.char with
      | none => (plainEscape? letter.char).map (·, 1)
      | some width =>
          if rest.length < width then none
          else
            match hexNumber? ((rest.take width).map Spot.char) with
            | none => none
            | some n =>
                if (0xD800 ≤ n && n ≤ 0xDFFF) || 0x10FFFF < n then none
                else some (Char.ofNat n, width + 1)

/-- Reads a quoted scalar whose first quote was read: its text and what is left. The first number
counts characters that are taken already. -/
def quotedText (quote : Char) :
    Nat → (text : List Char) → Fold → List Spot → Option (List Char × List Spot)
  | _, _, _, [] => none
  | taken + 1, text, fold, _ :: rest => quotedText quote taken text fold rest
  | 0, text, fold, spot :: rest =>
      let c := spot.char
      if Spot.documentMarker (spot :: rest) then none
      else if isBlank c then quotedText quote 0 text (fold.addBlank c) rest
      else if isBreak c then quotedText quote 0 text (fold.addBreak c) rest
      else
        let text := fold.joined ++ text
        if c = quote then
          if quote = '\'' && Spot.next (· = '\'') rest then quotedText quote 1 (c :: text) {} rest
          else some (text.reverse, rest)
        else if quote = '"' && c = '\\' then
          if Spot.next isBreak rest then quotedText quote 1 text { broken := true } rest
          else
            match escape? rest with
            | none => none
            | some (char, used) => quotedText quote used (char :: text) {} rest
        else quotedText quote 0 (c :: text) {} rest

/-- What becomes of the line breaks at the end of a block scalar. -/
inductive Chomping where
  | strip | clip | keep
deriving DecidableEq, Repr

def chomping? (c : Char) : Option Chomping :=
  if c = '+' then some .keep else if c = '-' then some .strip else none

/-- The chomping and the indentation (zero: to be found out) after the indicator of a block
scalar, in either order. -/
def blockHeader? (spots : List Spot) : Option (Chomping × Nat × List Spot) :=
  let digit? := fun (spots : List Spot) =>
    match spots with
    | spot :: rest =>
        if spot.char = '0' then none
        else if isDigit spot.char then some (spot.char.toNat - 48, rest)
        else some (0, spots)
    | [] => some (0, spots)
  let chomp := fun (spots : List Spot) =>
    match spots with
    | spot :: rest =>
        match chomping? spot.char with
        | some mode => (some mode, rest)
        | none => (none, spots)
    | [] => (none, spots)
  match chomp spots with
  | (some mode, rest) => (digit? rest).map fun (indent, rest) => (mode, indent, rest)
  | (none, _) =>
      match digit? spots with
      | none => none
      | some (0, rest) => some (.clip, 0, rest)
      | some (indent, rest) =>
          let (mode, rest) := chomp rest
          some (mode.getD .clip, indent, rest)

/-- The deepest column reached by the spaces of the leading lines that hold nothing else, and by
those before the first other character, or the end. None if a tab stands among them. -/
def leadingIndent? : (deepest : Nat) → List Spot → Option Nat
  | deepest, [] => some deepest
  | deepest, spot :: rest =>
      if spot.char = ' ' then leadingIndent? (max deepest (spot.column + 1)) rest
      else if spot.char = '\t' then none
      else if isBreak spot.char then leadingIndent? deepest rest
      else some deepest

/-- What was read of a block scalar. Its lists are held backwards. -/
structure BlockText where
  text : List Char := []
  /-- The break after the last line that holds text. -/
  lineBreak : List Char := []
  /-- The breaks of the empty lines after it. -/
  emptyLines : List Char := []
  /-- Whether that line began with a blank. -/
  startedBlank : Bool := false

/-- The text up to a new line: within folded text a single break between two lines that do not
begin with a blank is a space. -/
def BlockText.startLine (block : BlockText) (folded startsBlank : Bool) : BlockText :=
  let lineBreak :=
    if folded && block.lineBreak = ['\n'] && !block.startedBlank && !startsBlank then
      if block.emptyLines.isEmpty then [' '] else []
    else block.lineBreak
  { text := block.emptyLines ++ (lineBreak ++ block.text), startedBlank := startsBlank }

def BlockText.chomped (block : BlockText) (mode : Chomping) : List Char :=
  match mode with
  | .strip => block.text.reverse
  | .clip => (block.lineBreak ++ block.text).reverse
  | .keep => (block.emptyLines ++ (block.lineBreak ++ block.text)).reverse

/-- Reads the lines of a block scalar that stand at `indent`, and gives what is left. -/
def blockLines (folded : Bool) (indent : Nat) :
    (inLine : Bool) → BlockText → List Spot → Option (BlockText × List Spot)
  | _, block, [] => some (block, [])
  | true, block, spot :: rest =>
      if isBreak spot.char then
        blockLines folded indent false { block with lineBreak := [spot.char] } rest
      else blockLines folded indent true { block with text := spot.char :: block.text } rest
  | false, block, spot :: rest =>
      if spot.char = ' ' && spot.column < indent then blockLines folded indent false block rest
      else if spot.char = '\t' && spot.column < indent then none
      else if isBreak spot.char then
        blockLines folded indent false
          { block with emptyLines := spot.char :: block.emptyLines } rest
      else if spot.column = indent then
        let block := block.startLine folded (isBlank spot.char)
        blockLines folded indent true { block with text := spot.char :: block.text } rest
      else some (block, spot :: rest)

/-- Reads a block scalar whose indicator was read, inside a collection indented by `parent`. -/
def blockScalar? (folded : Bool) (parent : Int) (spots : List Spot) :
    Option (List Char × List Spot) := do
  let (mode, increment, spots) ← blockHeader? spots
  let spots ← Spot.endOfLine? spots
  let indent ←
    if increment = 0 then
      (leadingIndent? 0 spots).map fun deepest => max deepest (max (parent + 1) 1).toNat
    else some ((max parent 0).toNat + increment)
  let (block, rest) ← blockLines folded indent false {} spots
  return (block.chomped mode, rest)

end Yaml

end StageTemplates
