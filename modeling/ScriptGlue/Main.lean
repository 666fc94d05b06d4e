import ScriptGlue.Run

/-!
# The command

Runs the command line on the real file system and writes what the run has said.
-/
namespace ScriptGlue

/-- The number of an error of the operating system, which some calls negate. -/
def osNumber (code : UInt32) : Nat := min code.toNat (0x100000000 - code.toNat)

def DiskProblem.ofNumber (details : String) (number : Nat) : DiskProblem :=
  match number with
  | 2 => notFound
  | 17 => alreadyExists
  | 20 => notDirectory
  | 21 => isDirectory
  | n => other s!"{details} (os error {n})"

def DiskProblem.ofError : IO.Error → DiskProblem
  | .noFileOrDirectory _ code details | .alreadyExists _ code details
  | .inappropriateType _ code details | .permissionDenied _ code details
  | .resourceExhausted _ code details | .invalidArgument _ code details
  | .otherError code details => ofNumber details (osNumber code)
  | e => other (toString e)

/-- Does something that the operating system may refuse. -/
def attempt {α : Type} (x : IO α) : IO (Except DiskProblem α) := do
  match ← x.toBaseIO with
  | .ok a => return .ok a
  | .error e => return .error (.ofError e)

/-- Reads a file, which must be text. -/
def readText (path : String) : IO (Except DiskProblem String) := do
  match ← attempt (IO.FS.readBinFile path) with
  | .error problem => return .error problem
  | .ok bytes =>
    match String.fromUTF8? bytes with
    | some text => return .ok text
    | none => return .error .notText

def realDisk : Disk IO where
  read := readText
  write path contents := attempt (IO.FS.writeFile path contents)
  makeDir path := attempt (IO.FS.createDir path)

def helpText : String :=
  "\n".intercalate <|
    ["usage: nodegen [options] [generate [--dry-run] | check | version]", "",
      "options, each with a value:"] ++
      CommandLine.valueOptions.map fun (name, _) => s!"  --{name}"

/-- What is said about a command line that leads to no run. -/
def Usage.text : Usage → String
  | displayHelp => helpText
  | displayVersion => Run.programLine
  | invalidSubcommand => "error: unrecognized command"
  | unknownArgument => "error: unexpected argument"
  | invalidValue => "error: missing or invalid value"
  | argumentConflict => "error: argument given twice"
  | tooManyValues => "error: unexpected value"

/-- Writes what a run has said, and gives its exit code. -/
def finish : RunOutcome → IO UInt32
  | .usage u => do
    if u.exitCode = 0 then IO.println u.text else IO.eprintln u.text
    return u.exitCode.toUInt32
  | .finished r => do
    IO.print r.stdout
    IO.eprint r.stderr
    return r.code.toUInt32
  | .overflow => do
    IO.eprintln Fault.counterOverflow.message
    return 101

end ScriptGlue

def main (args : List String) : IO UInt32 := do
  let (outcome, journal) ← ScriptGlue.Run.ofArgs ScriptGlue.realDisk args
  for r in journal do
    IO.eprintln s!"[{r.level.label}] {r.text}"
  ScriptGlue.finish outcome
