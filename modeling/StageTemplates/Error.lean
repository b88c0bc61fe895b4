import StageTemplates.Value
import StageTemplates.Template.KeyPath

set_option autoImplicit false

/-!
What can go wrong, by cause, and the wording of each cause.
-/
namespace StageTemplates

/-- A token that cannot be read, or whose value cannot stand in text. -/
inductive TokenError where
  | grammar (fault : SyntaxFault)
  | nonPrimitive (kind : Kind)
  | nestedIterable (key : String)
deriving DecidableEq, Repr

namespace TokenError

def message : TokenError → String
  | grammar fault => fault.message
  | nonPrimitive kind => "Cannot interpolate data of type '" ++ kind.name ++ "'"
  | nestedIterable key => "Cannot interpolate nested iterable in '" ++ key ++ "'"

/-- Whether the wording begins on a line of its own. -/
def isBlock : TokenError → Bool
  | grammar _ => true
  | _ => false

end TokenError

/-- Why two sources of variables do not go together. -/
inductive MergeConflict where
  /-- Both files define the path. -/
  | inFiles (path added present : String)
  | defined (key : String)
  | stated (message : String)
deriving DecidableEq, Repr

def MergeConflict.message : MergeConflict → String
  | .inFiles path added present =>
      "cannot redefine '" ++ path ++ "' from '" ++ added ++ "' as it already exists in '" ++
        present ++ "'"
  | .defined key => "cannot merge '" ++ key ++ "' as it already exists"
  | .stated message => message

/-- Why a file may not be loaded again. -/
inductive ReloadConflict where
  | partLoaded (item : String)
  | wholeLoaded (item : String)
  | stated (message : String)
deriving DecidableEq, Repr

def ReloadConflict.message : ReloadConflict → String
  | .partLoaded item => "cannot load '" ++ item ++ "' as it's partially loaded already"
  | .wholeLoaded item => "cannot partially load '" ++ item ++ "' as it's already loaded."
  | .stated message => message

/-- Why variables cannot be had from a file or a list of sources. What a parser finds wrong in a
malformed file is its own to say: of that there is only that it refused the file. -/
inductive LoadFailure where
  | missing (path : String)
  | directory (path : String)
  | unreadable (path reason : String)
  | malformed (path : String)
  | compositeKey (path : String)
  | noDictionary (kind : Kind)
  | noDictionaryIn (kind : Kind) (path : String)
  | missingKey (key path : String)
  | noSource (kind : Kind)
  | stated (message : String)
deriving DecidableEq, Repr

def LoadFailure.message : LoadFailure → String
  | .missing path => "'" ++ path ++ "' does not exist"
  | .directory path => "'" ++ path ++ "' is a directory"
  | .unreadable path reason => "unable to read '" ++ path ++ "': " ++ reason
  | .malformed path => "unable to parse '" ++ path ++ "': <parser error>"
  | .compositeKey path => "unable to parse '" ++ path ++ "': mapping keys must be scalars"
  | .noDictionary kind => "expected a dictionary, got '" ++ kind.name ++ "'"
  | .noDictionaryIn kind path =>
      "expected a dictionary, got '" ++ kind.name ++ "' in file '" ++ path ++ "'"
  | .missingKey key path => "could not find '" ++ key ++ "' in '" ++ path ++ "'"
  | .noSource kind =>
      "expected a file path or a dictionary in 'vars', got '" ++ kind.name ++ "'"
  | .stated message => message

/-- An error of the variables. -/
inductive ContextError where
  | keyNotInContext (key : String)
  | merge (key : String) (conflict : MergeConflict)
  | varsAlreadyLoaded (conflict : ReloadConflict)
  | paramsLoad (failure : LoadFailure)
  /-- Names that must not be changed, and the source that would change them. -/
  | reservedKey (keys : List String) (item : Option String)
  | token (error : TokenError)
deriving DecidableEq, Repr

namespace ContextError

def message : ContextError → String
  | keyNotInContext key => "Could not find '" ++ key ++ "'"
  | merge _ conflict => conflict.message
  | varsAlreadyLoaded conflict => conflict.message
  | paramsLoad failure => failure.message
  | reservedKey keys item =>
      "attempted to modify reserved " ++ (if 1 < keys.length then "keys" else "key") ++ " " ++
        ", ".intercalate keys ++
        match item with
        | some item => " in '" ++ item ++ "'"
        | none => ""
  | token error => error.message

/-- Whether one field is at fault rather than the whole stage. -/
def isFieldError : ContextError → Bool
  | keyNotInContext _ => true
  | token _ => true
  | _ => false

/-- Whether the wording begins on a line of its own. -/
def isBlock : ContextError → Bool
  | merge _ _ => true
  | varsAlreadyLoaded _ => true
  | token error => error.isBlock
  | _ => false

end ContextError

/-- What is wrong with the shape of a document. -/
inductive ShapeFault where
  | noDictionary (kind : Kind)
  | noList (kind : Kind)
  | noBody
  | stated (message : String)
deriving DecidableEq, Repr

def ShapeFault.message : ShapeFault → String
  | .noDictionary kind => "expected a dictionary, got '" ++ kind.name ++ "'"
  | .noList kind => "expected a list, got '" ++ kind.name ++ "'"
  | .noBody => "'foreach' requires a 'do' dictionary"
  | .stated message => message

/-- Why a part of a document cannot be resolved. -/
inductive ResolveCause where
  | context (error : ContextError)
  | notIterable (kind : Kind)
  | interpolationNotAllowed
  | invalidDefinition (fault : ShapeFault)
deriving DecidableEq, Repr

namespace ResolveCause

def message : ResolveCause → String
  | context error => error.message
  | notIterable kind => "expected list/dictionary, got " ++ kind.name
  | interpolationNotAllowed => "interpolating is not allowed"
  | invalidDefinition fault => fault.message

def verb : ResolveCause → String
  | notIterable _ => "resolve"
  | _ => "parse"

/-- Whether the wording begins on a line of its own. -/
def isBlock : ResolveCause → Bool
  | context error => error.isBlock
  | _ => false

end ResolveCause

/-- A failure at a place of the document in the file `path`. -/
structure ResolveError where
  location : String
  path : String
  cause : ResolveCause
deriving DecidableEq, Repr

namespace ResolveError

def message (error : ResolveError) : String :=
  "failed to " ++ error.cause.verb ++ " " ++ error.location ++ " in '" ++ error.path ++ "':" ++
    (if error.cause.isBlock then "\n" else " ") ++ error.cause.message

def context? (error : ResolveError) : Option ContextError :=
  match error.cause with
  | .context error => some error
  | _ => none

end ResolveError

/-- What was asked for and is not there. -/
inductive NotFound where
  | stage (name : String)
  | member (key group : String)
  | stated (message : String)
deriving DecidableEq, Repr

def NotFound.message : NotFound → String
  | .stage name => "Could not find '" ++ name ++ "'"
  | .member key group => "Could not find '" ++ key ++ "' in foreach group '" ++ group ++ "'"
  | .stated message => message

/-- Why a stage cannot be had. -/
inductive StageError where
  | resolve (error : ResolveError)
  | notFound (cause : NotFound)
deriving DecidableEq, Repr

namespace StageError

def message : StageError → String
  | resolve error => error.message
  | notFound cause => cause.message

def isNotFound : StageError → Bool
  | notFound _ => true
  | resolve _ => false

def resolveError? : StageError → Option ResolveError
  | resolve error => some error
  | notFound _ => none

end StageError

end StageTemplates
