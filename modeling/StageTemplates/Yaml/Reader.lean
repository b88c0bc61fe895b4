import StageTemplates.Yaml.Anchor
import StageTemplates.Yaml.Datum
import StageTemplates.Yaml.Lexer
import StageTemplates.Yaml.Plain

set_option autoImplicit false

/-!
From the nodes of a document to its data: aliases are followed, scalars get their types, equal keys
in one mapping are refused. Collections nest at most 128 deep, and aliases are followed at most a
hundred times as often as the document has parts.
-/
namespace StageTemplates

namespace Yaml

/-- The tags that name a type of scalars. -/
def typeTag (name : String) : TagText := TagText.ofChars ("tag:yaml.org,2002:" ++ name).toList

def TagText.isLocal (tag : TagText) : Bool := tag.head? = some 33

/-- The name of a local tag, if it is text. -/
def localTag? (tag : Option TagText) : Option TagText :=
  match tag with
  | some tag =>
      if TagText.isLocal tag && (String.fromUTF8? ⟨(TagText.name tag).toArray⟩).isSome then
        some (TagText.name tag)
      else none
  | none => none

/-- A scalar without a tag that forces its type: only plain text stands for more than itself. -/
def untaggedScalar? (text : List Char) (plain : Bool) : Option Scalar :=
  if plain then plainScalar? text else some (.string (String.ofList text))

/-- A scalar of the type that its tag forces. -/
def forcedScalar? (tag : TagText) (text : List Char) : Option Scalar :=
  if tag = typeTag "bool" then (boolean? text).map .bool
  else if tag = typeTag "int" then
    match IntegerText.ofChars text with
    | .fits number => some (.int number)
    | _ => none
  else if tag = typeTag "float" then (float? text).map .float
  else if tag = typeTag "null" then if isNullWord text then some .null else none
  else some (.string (String.ofList text))

/-- A scalar with its tag. A lone `!` names no type, and is a tag all the same: the key `! a` is
another key than `a`, and a mapping may hold both. -/
def scalarDatum? (tag : Option TagText) (text : List Char) (plain : Bool) : Option Datum :=
  match tag, localTag? tag with
  | _, some name => (untaggedScalar? text plain).map fun value => .tagged name (.scalar value)
  | some tag, none =>
      if TagText.isLocal tag then (untaggedScalar? text plain).map .scalar
      else (forcedScalar? tag text).map .scalar
  | none, none => (untaggedScalar? text plain).map .scalar

def withTag (tag : Option TagText) (datum : Datum) : Datum :=
  match localTag? tag with
  | some name => .tagged name datum
  | none => datum

/-- Applies a step to each member in turn, counting on. -/
def eachCounted {α β : Type} (step : α → Nat → Option (β × Nat)) :
    List α → Nat → Option (List β × Nat)
  | [], count => some ([], count)
  | first :: rest, count => do
      let (first, count) ← step first count
      let (rest, count) ← eachCounted step rest count
      return (first :: rest, count)

/-- The entries of a mapping, its keys all different. -/
def entriesCounted (step : Tree Nat → Nat → Option (Datum × Nat)) :
    (done : List (Datum × Datum)) → List (Tree Nat × Tree Nat) → Nat →
    Option (List (Datum × Datum) × Nat)
  | done, [], count => some (done.reverse, count)
  | done, (key, value) :: rest, count => do
      let (key, count) ← step key count
      if Datum.hasKey key done then none
      else
        let (value, count) ← step value count
        entriesCounted step ((key, value) :: done) rest count

/-- What an alias stands for, and the count of aliases followed. -/
def followed? (nodes : List (Nat × Tree Nat)) (limit : Nat) (tree : Tree Nat) (count : Nat) :
    Option (Tree Nat × Nat) :=
  match tree with
  | .alias number =>
      if limit ≤ count then none
      else (Tree.target? nodes number).map fun tree => (tree, count + 1)
  | tree => some (tree, count)

/-- The data of a node in which collections nest at most `depth` deep. The numbers are counts of
aliases followed, before and after. -/
def datum? (nodes : List (Nat × Tree Nat)) (limit : Nat) :
    (depth : Nat) → Tree Nat → Nat → Option (Datum × Nat)
  | depth, tree, count =>
      match followed? nodes limit tree count with
      | none => none
      | some (.alias _, _) => none
      | some (.scalar properties text plain, count) =>
          (scalarDatum? properties.tag text plain).map fun datum => (datum, count)
      | some (.sequence properties items, count) =>
          match depth with
          | 0 => none
          | depth + 1 =>
              (eachCounted (datum? nodes limit depth) items count).map fun (items, count) =>
                (withTag properties.tag (.sequence items), count)
      | some (.mapping properties entries, count) =>
          match depth with
          | 0 => none
          | depth + 1 =>
              (entriesCounted (datum? nodes limit depth) [] entries count).map
                fun (entries, count) => (withTag properties.tag (.mapping entries), count)

def depthLimit : Nat := 128

/-- The data that a text holds; null if it holds none. -/
def read (text : String) : Option Datum := do
  let tokens ← Token.ofText? text.toList
  match ← Tree.ofTokens? tokens with
  | none => some (.scalar .null)
  | some tree =>
      let (tree, _) ← tree.numbered? []
      let (datum, _) ← datum? tree.anchored (100 * tree.size) depthLimit tree 0
      return datum

end Yaml

end StageTemplates
