import ScriptGlue.Disk.Path

/-!
# Disks

What a run needs from a file system, and a file system that is a value: a map from paths to files
and directories.
-/
namespace ScriptGlue

/-- Why a file system refuses. -/
inductive DiskProblem where
  | notFound
  | alreadyExists
  | notDirectory
  | isDirectory
  /-- The file is no text. -/
  | notText
  | other (text : String)
  deriving DecidableEq, Repr

def DiskProblem.message : DiskProblem → String
  | notFound => "No such file or directory (os error 2)"
  | alreadyExists => "File exists (os error 17)"
  | notDirectory => "Not a directory (os error 20)"
  | isDirectory => "Is a directory (os error 21)"
  | notText => "stream did not contain valid UTF-8"
  | other text => text

structure Disk (m : Type → Type) where
  read : String → m (Except DiskProblem String)
  write : String → String → m (Except DiskProblem Unit)
  /-- Makes a directory whose own directory exists. -/
  makeDir : String → m (Except DiskProblem Unit)

namespace Disk

variable {m : Type → Type} [Monad m]

/-- A directory is what cannot be read because it is one. -/
def isDirectory (d : Disk m) (path : String) : m Bool := do
  match ← d.read path with
  | .error .isDirectory => return true
  | _ => return false

/-- Makes a directory unless it exists. -/
def ensureDir (d : Disk m) (path : String) : m (Except DiskProblem Unit) := do
  match ← d.makeDir path with
  | .ok () => return .ok ()
  | .error problem => return if ← d.isDirectory path then .ok () else .error problem

/-- Makes the directory at the end of the given steps, which are listed from the last one on, and
those on the way to it. -/
def ensureSteps (d : Disk m) : List String → m (Except DiskProblem Unit)
  | [] => return .ok ()
  | step :: r => do
    let path := Path.ofSteps (step :: r).reverse
    match ← d.ensureDir path with
    | .error .notFound =>
      match ← ensureSteps d r with
      | .ok () => d.ensureDir path
      | refusal => return refusal
    | result => return result

def makeDirs (d : Disk m) (path : String) : m (Except DiskProblem Unit) := do
  if path.isEmpty then return .ok ()
  else
    match ← d.ensureDir path with
    | .error .notFound =>
      match ← d.ensureSteps (Path.steps path).dropLast.reverse with
      | .ok () => d.ensureDir path
      | refusal => return refusal
    | result => return result

end Disk

inductive DiskNode where
  | text (contents : String)
  /-- A file that is no text. -/
  | binary
  | directory
  deriving DecidableEq, Repr

/-- Files and directories by the names that lead to them. -/
structure FileTree where
  nodes : List (List String × DiskNode)
  deriving DecidableEq, Repr

namespace FileTree

def empty : FileTree := ⟨[]⟩

/-- Whether names lead to where the tree starts, to the root, or out of the tree. -/
def isBase (names : List String) : Bool := names.all (· == "..") || names == ["/"]

def node? (t : FileTree) (names : List String) : Option DiskNode :=
  if isBase names then some .directory else t.nodes.lookup names

def set (t : FileTree) (names : List String) (node : DiskNode) : FileTree :=
  ⟨(names, node) :: t.nodes.filter (·.1 ≠ names)⟩

/-- One directory up. -/
def up (names : List String) : List String :=
  if names == ["/"] then names
  else if names.all (· == "..") then names ++ [".."]
  else names.dropLast

/-- Where a path leads. -/
inductive Target where
  | present (names : List String) (node : DiskNode)
  /-- Nothing is there, but its directory is. -/
  | absent (names : List String)
  deriving DecidableEq, Repr

def follow (t : FileTree) (here : List String) : List String → Except DiskProblem Target
  | [] => .ok (.present here .directory)
  | name :: r =>
    if Path.isIdle name then follow t here r
    else if name = ".." then follow t (up here) r
    else
      let there := here ++ [name]
      match t.node? there, r with
      | some .directory, _ => follow t there r
      | some node, [] => .ok (.present there node)
      | some _, _ => .error .notDirectory
      | none, [] => .ok (.absent there)
      | none, _ => .error .notFound

/-- Follows the names of a path, which must not be empty. -/
def resolve (t : FileTree) (path : String) (names : List String) : Except DiskProblem Target :=
  if path.isEmpty then .error .notFound else t.follow [] names

def read (t : FileTree) (path : String) : Except DiskProblem String :=
  match t.resolve path (Path.names path) with
  | .error problem => .error problem
  | .ok (.present _ (.text contents)) => .ok contents
  | .ok (.present _ .binary) => .error .notText
  | .ok (.present _ .directory) => .error .isDirectory
  | .ok (.absent _) => .error .notFound

/-- Writes a file whose directory exists. A path with a slash at its end is not that of a file. -/
def write (t : FileTree) (path contents : String) : Except DiskProblem FileTree :=
  match t.resolve path (Path.bareNames path) with
  | .error problem => .error problem
  | .ok (.present _ .directory) => .error .isDirectory
  | .ok (.present names _) | .ok (.absent names) =>
    if Path.bareNames path = Path.names path then .ok (t.set names (.text contents))
    else .error .isDirectory

/-- Makes a directory whose own directory exists. -/
def makeDir (t : FileTree) (path : String) : Except DiskProblem FileTree :=
  match t.resolve path (Path.bareNames path) with
  | .error problem => .error problem
  | .ok (.present _ _) => .error .alreadyExists
  | .ok (.absent names) => .ok (t.set names .directory)

/-- Applies an operation, which leaves the tree as it is if it fails. -/
def update (f : FileTree → Except DiskProblem FileTree) :
    StateM FileTree (Except DiskProblem Unit) := fun t =>
  match f t with
  | .ok t' => (.ok (), t')
  | .error problem => (.error problem, t)

def disk : Disk (StateM FileTree) where
  read path := do return (← get).read path
  write path contents := update (·.write path contents)
  makeDir path := update (·.makeDir path)

def insert (t : FileTree) (path : String) (node : DiskNode) : FileTree :=
  let steps := Path.steps path
  let (_, t') := (disk.ensureSteps steps.dropLast.reverse).run t
  t'.set steps node

end FileTree

end ScriptGlue
