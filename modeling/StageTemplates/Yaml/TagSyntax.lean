import StageTemplates.Yaml.ScalarText
import StageTemplates.Yaml.Token

set_option autoImplicit false

/-!
The written forms of names, tags and directives.
-/
namespace StageTemplates

namespace Yaml

def wordText (spots : List Spot) : List Char × List Spot :=
  ((spots.takeWhile fun spot => isWord spot.char).map Spot.char,
    spots.dropWhile fun spot => isWord spot.char)

/-- The name after the mark of an anchor or an alias. -/
def anchorName? (spots : List Spot) : Option (List Char × List Spot) :=
  match wordText spots with
  | ([], _) => none
  | (name, rest) =>
      let ends := fun (c : Char) =>
        c = '?' || c = ':' || c = ',' || c = ']' || c = '\x7d' || c = '%' || c = '@' ||
          c.toNat = 0x60
      if Spot.gapNext rest || Spot.next ends rest then some (name, rest) else none

/-- The octet of an escape: two hexadecimal digits after a percent sign. -/
def octet? : List Spot → Option (Nat × List Spot)
  | percent :: high :: low :: rest =>
      if percent.char = '%' then
        match hexValue? high.char, hexValue? low.char with
        | some a, some b => some (a * 16 + b, rest)
        | _, _ => none
      else none
  | _ => none

/-- How many octets the encoding of a character takes that begins with this one. -/
def encodedWidth? (first : Nat) : Option Nat :=
  if first < 0x80 then some 1
  else if first < 0xC0 then none
  else if first < 0xE0 then some 2
  else if first < 0xF0 then some 3
  else if first < 0xF8 then some 4
  else none

def moreOctets? : (count : Nat) → List Spot → Option TagText
  | 0, _ => some []
  | count + 1, spots => do
      let (octet, rest) ← octet? spots
      if 0x80 ≤ octet && octet < 0xC0 then
        (moreOctets? count rest).map (octet.toUInt8 :: ·)
      else none

/-- The octets of one escaped character. -/
def escapedOctets? (spots : List Spot) : Option TagText := do
  let (first, rest) ← octet? spots
  let width ← encodedWidth? first
  (moreOctets? (width - 1) rest).map (first.toUInt8 :: ·)

def isUriMark (c : Char) : Bool := ";/?:@&=+$.!~*'()".toList.contains c

def isUriBracket (c : Char) : Bool := c = ',' || c = '[' || c = ']'

/-- The longest text of a URI. The first number counts characters that an escape has taken. -/
def uriText? (brackets : Bool) : Nat → List Spot → Option (TagText × List Spot)
  | _, [] => some ([], [])
  | taken + 1, _ :: rest => uriText? brackets taken rest
  | 0, spot :: rest =>
      let c := spot.char
      if c = '%' then
        match escapedOctets? (spot :: rest) with
        | none => none
        | some octets =>
            (uriText? brackets (3 * octets.length - 1) rest).map fun (text, rest) =>
              (octets ++ text, rest)
      else if isWord c || isUriMark c || (brackets && isUriBracket c) then
        (uriText? brackets 0 rest).map fun (text, rest) => (c.toNat.toUInt8 :: text, rest)
      else some ([], spot :: rest)

/-- A URI that takes some text. It counts up to its first zero byte. -/
def someUriText? (brackets : Bool) (spots : List Spot) : Option (TagText × List Spot) :=
  match uriText? brackets 0 spots with
  | some ([], _) => none
  | other => other.map fun (text, rest) => (TagText.untilZero text, rest)

/-- An exclamation mark, a word, and an exclamation mark if one follows. -/
def tagHandle? (spots : List Spot) : Option (List Char × List Spot) :=
  match spots with
  | mark :: rest =>
      if mark.char = '!' then
        let (word, rest) := wordText rest
        match rest with
        | close :: after =>
            if close.char = '!' then some ('!' :: (word ++ ['!']), after)
            else some ('!' :: word, rest)
        | [] => some ('!' :: word, rest)
      else none
  | [] => none

/-- Reads a tag: in angle brackets, with a handle, or a local name. -/
def tag? (inFlow : Bool) (spots : List Spot) : Option (Token × List Spot) := do
  let (token, rest) ←
    match spots with
    | mark :: open_ :: rest =>
        if open_.char = '<' then
          match someUriText? true rest with
          | some (suffix, close :: rest) =>
              if close.char = '>' then some (Token.tag [] suffix, rest) else none
          | _ => none
        else tagWithHandle? (mark :: open_ :: rest)
    | spots => tagWithHandle? spots
  if Spot.gapNext rest || (inFlow && Spot.next (· = ',') rest) then some (token, rest) else none
where
  tagWithHandle? (spots : List Spot) : Option (Token × List Spot) := do
    let (handle, rest) ← tagHandle? spots
    if 2 ≤ handle.length && handle.getLast? = some '!' then
      let (suffix, rest) ← someUriText? false rest
      return (.tag handle suffix, rest)
    else
      let (more, rest) ← uriText? false 0 rest
      match TagText.untilZero (TagText.ofChars (handle.drop 1) ++ more) with
      | [] => return (.tag [] (TagText.ofChars ['!']), rest)
      | suffix => return (.tag ['!'] suffix, rest)

def versionNumber? (spots : List Spot) : Option (Nat × List Spot) :=
  let digits := spots.takeWhile fun spot => isDigit spot.char
  if digits.isEmpty || 9 < digits.length then none
  else
    some (digits.foldl (fun number spot => number * 10 + (spot.char.toNat - 48)) 0,
      spots.drop digits.length)

def versionDirective? (spots : List Spot) : Option (Token × List Spot) := do
  let (major, spots) ← versionNumber? (Spot.skipBlanks spots)
  match spots with
  | point :: spots =>
      if point.char = '.' then
        let (minor, spots) ← versionNumber? spots
        return (.version major minor, spots)
      else none
  | [] => none

def tagDirective? (spots : List Spot) : Option (Token × List Spot) := do
  let (handle, spots) ← tagHandle? (Spot.skipBlanks spots)
  if handle ≠ ['!'] && !(2 ≤ handle.length && handle.getLast? = some '!') then none
  else if Spot.next isBlank spots then
    let (expansion, spots) ← someUriText? true (Spot.skipBlanks spots)
    if Spot.gapNext spots then return (.tagShorthand handle expansion, spots) else none
  else none

/-- Reads a directive after its percent sign, and its line to the end. -/
def directive? (spots : List Spot) : Option (Token × List Spot) := do
  let (name, spots) := wordText spots
  if name.isEmpty || !Spot.gapNext spots then none
  else
    let (token, spots) ←
      if name = "YAML".toList then versionDirective? spots
      else if name = "TAG".toList then tagDirective? spots
      else none
    let spots ← Spot.endOfLine? spots
    return (token, spots)

end Yaml

end StageTemplates
