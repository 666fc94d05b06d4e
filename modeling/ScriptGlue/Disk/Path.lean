/-!
# Paths

Paths are texts. Joining them keeps every part as it is written.
-/
namespace ScriptGlue.Path

def isAbsolute (path : String) : Bool := path.toList.head? == some '/'

/-- A path below another. An absolute one stays as it is. -/
def join (base path : String) : String :=
  if isAbsolute path || base.isEmpty then path
  else if base.toList.getLast? = some '/' then base ++ path
  else base ++ "/" ++ path

def splitSlash : List Char → List (List Char)
  | [] => [[]]
  | '/' :: r => [] :: splitSlash r
  | c :: r =>
    match splitSlash r with
    | [] => [[c]]
    | part :: parts => (c :: part) :: parts

/-- The names that lead from a directory to a file, as written. An absolute path starts with the
name of the root. -/
def names (path : String) : List String :=
  match path.toList with
  | '/' :: r => "/" :: (splitSlash r).map String.ofList
  | s => (splitSlash s).map String.ofList

/-- The names of a path without slashes at its end. -/
def bareNames (path : String) : List String := ((names path).reverse.dropWhile (·.isEmpty)).reverse

/-- Whether a name leads nowhere. -/
def isIdle (name : String) : Bool := name.isEmpty || name == "."

def steps (path : String) : List String := (names path).filter (!isIdle ·)

def ofSteps : List String → String
  | "/" :: r => "/" ++ "/".intercalate r
  | steps => "/".intercalate steps

/-- The last name of a path, unless it leads upwards. -/
def fileName? (path : String) : Option String :=
  (steps path).getLast?.filter fun name => name ≠ ".." && name ≠ "/"

end ScriptGlue.Path
