set_option autoImplicit false

/-!
White space, and text without it at its ends.
-/
namespace StageTemplates

namespace Text

/-- The characters with the Unicode property White_Space. -/
def isSpace (c : Char) : Bool :=
  let n := c.toNat
  (9 ≤ n && n ≤ 13) || n = 32 || n = 0x85 || n = 0xA0 || n = 0x1680 ||
    (0x2000 ≤ n && n ≤ 0x200A) || n = 0x2028 || n = 0x2029 || n = 0x202F || n = 0x205F ||
    n = 0x3000

def dropSpaces (text : List Char) : List Char := text.dropWhile isSpace

def dropSpacesEnd (text : List Char) : List Char := (dropSpaces text.reverse).reverse

def trim (text : String) : String := String.ofList (dropSpacesEnd (dropSpaces text.toList))

def trimEnd (text : String) : String := String.ofList (dropSpacesEnd text.toList)

end Text

end StageTemplates
