import StageTemplates.Entries
import StageTemplates.Path

set_option autoImplicit false

/-!
Where variables files are looked for: files held in memory, or folders inside folders.
-/
namespace StageTemplates

/-- What can be asked of files. A file that cannot be read gives the reason. -/
structure FileSystem where
  exists? : String → Bool
  isFolder : String → Bool
  read : String → Except String String

/-- Files under normalized paths, and folders that need not hold a file. -/
structure MemoryFiles where
  files : Entries String := []
  folders : List String := []

namespace MemoryFiles

def addFile (memory : MemoryFiles) (path text : String) : MemoryFiles :=
  { memory with files := Entries.put (Path.normalize path) text memory.files }

def addFolder (memory : MemoryFiles) (path : String) : MemoryFiles :=
  { memory with folders := memory.folders ++ [Path.normalize path] }

def ofListing (files : List (String × String)) (folders : List String) : MemoryFiles :=
  folders.foldl addFolder (files.foldl (fun memory file => memory.addFile file.1 file.2) {})

/-- A folder is listed, or the path of some file goes through it. -/
def isFolder (memory : MemoryFiles) (path : String) : Bool :=
  let path := Path.normalize path
  memory.folders.contains path ||
    memory.files.any fun file => (path ++ "/").toList.isPrefixOf file.1.toList

def exists? (memory : MemoryFiles) (path : String) : Bool :=
  Entries.has (Path.normalize path) memory.files || memory.isFolder (Path.normalize path)

def read (memory : MemoryFiles) (path : String) : Except String String :=
  match Entries.value? (Path.normalize path) memory.files with
  | some text => .ok text
  | none => .error (Path.normalize path ++ ": no such file")

def fileSystem (memory : MemoryFiles) : FileSystem :=
  ⟨memory.exists?, memory.isFolder, memory.read⟩

end MemoryFiles

/-- The paths that were read, in order, as a memory of files records them. -/
abbrev ReadLog := List String

namespace ReadLog

def ofPaths (paths : List String) : ReadLog := paths.map Path.normalize

def countOf (log : ReadLog) (path : String) : Nat := log.count (Path.normalize path)

end ReadLog

/-- A file, or a folder with its entries. -/
inductive Disk where
  | file (text : String)
  | folder (entries : List (String × Disk))
deriving Inhabited

namespace Disk

def emptyFolder : Disk := .folder []

/-- The entries of a folder; a file has none. -/
def entries : Disk → Entries Disk
  | .folder entries => entries
  | .file _ => []

/-- Puts something at a place inside a folder, making the folders on the way. -/
def place (leaf : Disk) : List String → Disk → Disk
  | [], disk =>
      match leaf, disk with
      | .folder [], .folder entries => .folder entries
      | leaf, _ => leaf
  | name :: rest, disk =>
      let inner := (Entries.value? name disk.entries).getD emptyFolder
      .folder (Entries.put name (place leaf rest inner) disk.entries)

def ofListing (files : List (String × String)) (folders : List String) : Disk :=
  let withFiles := files.foldl
    (fun disk file => place (.file file.2) (Path.names file.1) disk) emptyFolder
  folders.foldl (fun disk path => place emptyFolder (Path.names path) disk) withFiles

/-- One step of a walk that began in a folder; the folders entered and not left come innermost
first. Nothing is known of what lies outside, so it counts as empty. -/
def step? (trail : List Disk) (segment : String) : Option (List Disk) :=
  match trail with
  | .file _ :: _ => none
  | here :: outer =>
      if segment = "" || segment = "." then some (here :: outer)
      else if segment = ".." then
        some (if outer.isEmpty then [emptyFolder] else outer)
      else (Entries.value? segment here.entries).map (· :: here :: outer)
  | [] => none

/-- What a path leads to from a folder. Every name on the way must exist. -/
def find? (disk : Disk) (path : String) : Option Disk :=
  if path = "" then none
  else
    let start := if Path.isAbsolute path then [emptyFolder] else [disk]
    ((Path.segments path).foldlM step? start).bind List.head?

def fileSystem (disk : Disk) : FileSystem where
  exists? path := (disk.find? path).isSome
  isFolder path :=
    match disk.find? path with
    | some (.folder _) => true
    | _ => false
  read path :=
    match disk.find? path with
    | some (.file text) => .ok text
    | some (.folder _) => .error "is a folder"
    | none => .error "no such file"

end Disk

end StageTemplates
