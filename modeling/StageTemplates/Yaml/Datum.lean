import StageTemplates.Value
import StageTemplates.Yaml.Token

set_option autoImplicit false

/-!
The data of a YAML document: as plain data, but with keys of any kind and with tags.
-/
namespace StageTemplates

namespace Yaml

inductive Datum where
  | scalar (value : Scalar)
  | sequence (items : List Datum)
  | mapping (entries : List (Datum × Datum))
  | tagged (tag : TagText) (datum : Datum)
deriving Inhabited

/-- Equality of scalars as keys: two texts that are no numbers are the same key. -/
def sameScalar : Scalar → Scalar → Bool
  | .float a, .float b => (a.isNaN && b.isNaN) || a == b
  | a, b => a.same b

/-- A tag without the mark it begins with. -/
def TagText.name (tag : TagText) : TagText :=
  match tag with
  | [] => []
  | [mark] => [mark]
  | mark :: rest => if mark = 33 then rest else mark :: rest

namespace Datum

mutual

/-- Equality of data: the order of a mapping's entries does not count. -/
def same : Datum → Datum → Bool
  | .scalar a, .scalar b => sameScalar a b
  | .sequence a, .sequence b => sameItems a b
  | .mapping a, .mapping b => a.length == b.length && sameEntries a b
  | .tagged s a, .tagged t b => TagText.name s == TagText.name t && same a b
  | _, _ => false
termination_by structural datum => datum

def sameItems : List Datum → List Datum → Bool
  | [], [] => true
  | a :: as, b :: bs => same a b && sameItems as bs
  | _, _ => false
termination_by structural items => items

/-- Every entry on the left is an entry on the right. -/
def sameEntries : List (Datum × Datum) → List (Datum × Datum) → Bool
  | [], _ => true
  | (key, a) :: as, bs =>
      (bs.any fun entry => same key entry.1 && same a entry.2) && sameEntries as bs
termination_by structural entries => entries

end

/-- Whether a key is among those of the entries. -/
def hasKey (key : Datum) (entries : List (Datum × Datum)) : Bool :=
  entries.any fun entry => key.same entry.1

end Datum

end Yaml

end StageTemplates
