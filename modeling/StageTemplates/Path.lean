import StageTemplates.Text.Cut

set_option autoImplicit false

/-!
Paths as text, with `/` between their segments. Nothing here looks at files.
-/
namespace StageTemplates

namespace Path

def isAbsolute (path : String) : Bool := path.toList.head? = some '/'

def segments (path : String) : List String := (path.toList.splitOn '/').map String.ofList

def joined (names : List String) : String := "/".intercalate names

/-- The path `path` as seen from `base`. -/
def join (base path : String) : String :=
  if base = "" || isAbsolute path then path
  else String.ofList (base.toList.reverse.dropWhile (· = '/')).reverse ++ "/" ++ path

/-- One step of a walk along a path; the names passed and not left again are held backwards. A
step up at the root stays there; elsewhere it is kept when no name is left to leave. -/
def step (absolute : Bool) (passed : List String) (segment : String) : List String :=
  if segment = "" || segment = "." then passed
  else if segment = ".." then
    match passed with
    | last :: rest =>
        if last ≠ ".." then rest else if absolute then passed else ".." :: passed
    | [] => if absolute then [] else [".."]
  else segment :: passed

/-- The names that a walk along the path leaves. -/
def walk (path : String) : List String :=
  ((segments path).foldl (step (isAbsolute path)) []).reverse

/-- The path without empty segments, without `.` and without a `..` after a name. -/
def normalize (path : String) : String :=
  let text := joined (walk path)
  if isAbsolute path then "/" ++ text else if text = "" then "." else text

/-- The segments of a normalized path that name something. -/
def names (path : String) : List String :=
  (segments (normalize path)).filter fun segment => segment ≠ "" && segment ≠ "."

/-- What is left of two lists without their common beginning. -/
def withoutCommon : List String → List String → List String × List String
  | a :: as, b :: bs => if a = b then withoutCommon as bs else (a :: as, b :: bs)
  | as, bs => (as, bs)

/-- The way from `start` to `path`. -/
def relative (path start : String) : String :=
  let (down, up) := withoutCommon (names path) (names start)
  let way := up.map (fun _ => "..") ++ down
  if way.isEmpty then "." else joined way

/-- The last name of a path, if it does not end in `..`. -/
def fileName? (path : String) : Option String :=
  match ((segments path).filter fun segment => segment ≠ "" && segment ≠ ".").getLast? with
  | some name => if name = ".." then none else some name
  | none => none

/-- What follows the last point of a file's name, unless the name begins with it. -/
def extension? (path : String) : Option String :=
  match fileName? path with
  | none => none
  | some name =>
      match Text.cutLast '.' name.toList with
      | some (_ :: _, extension) => some (String.ofList extension)
      | _ => none

/-- Whether a file's name ends in `.json`, in letters of either case. -/
def isJson (path : String) : Bool :=
  (extension? path).map (fun extension => extension.toList.map Char.toLower) =
    some "json".toList

end Path

end StageTemplates
