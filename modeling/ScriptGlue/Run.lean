import ScriptGlue.CommandLine
import ScriptGlue.Custom.Builtin
import ScriptGlue.Disk.Basic
import ScriptGlue.Hook.Reading
import ScriptGlue.Output.Assembly
import ScriptGlue.Record.Scraping

/-!
# Runs

A run reads its inputs, makes all files, reports, and writes. Nothing is written before everything
has been made, and no file at all if the report has errors. The file system is a parameter.
-/
namespace ScriptGlue

open Output

/-- What a run has said so far, each list with the last line first. -/
structure Console where
  out : List String := []
  err : List String := []
  journal : List (List Remark) := []
  deriving DecidableEq, Repr

inductive RunFailure where
  | message (text : String)
  /-- A running value got too large, after which nothing can be said. -/
  | counterOverflow
  deriving DecidableEq, Repr

/-- A run over a file system: it talks, and it may stop early. -/
abbrev RunM (m : Type → Type) := ExceptT RunFailure (StateT Console m)

namespace Run

variable {m : Type → Type} [Monad m]

def say (line : String) : RunM m Unit :=
  modify fun c => { c with out := line :: c.out }

def complain (line : String) : RunM m Unit :=
  modify fun c => { c with err := line :: c.err }

def note {α : Type} (x : Logged α) : RunM m α := do
  modify fun (c : Console) => { c with journal := x.journal :: c.journal }
  return x.value

/-- Does something outside without a word about it. -/
def quietly {α : Type} (x : m α) : RunM m α := ExceptT.lift (StateT.lift x)

/-- Calls the file system, whose refusal stops the run. -/
def onDisk {α : Type} (describe : DiskProblem → String) (x : m (Except DiskProblem α)) :
    RunM m α := do
  match ← quietly x with
  | .ok a => return a
  | .error problem => throw (.message (describe problem))

/-- Stops for a fault, with what was being done in front of its wording. -/
def orStop {α : Type} (context : String) : Except Fault α → RunM m α
  | .ok a => return a
  | .error .counterOverflow => throw .counterOverflow
  | .error fault => throw (.message (context ++ fault.message))

def ioFault (path : String) (problem : DiskProblem) : Fault := .io s!"{path}: {problem.message}"

def ioMessage (path : String) (problem : DiskProblem) : String := (ioFault path problem).message

def readSettings (disk : Disk m) (path : String) : m (Except Fault Settings) := do
  match ← disk.read path with
  | .ok text => return Settings.readFile path text
  | .error problem => return .error (ioFault path problem)

/-- The settings: those of the file, with options on top, below the root. -/
def loadSettings (disk : Disk m) (o : RunOptions) : RunM m Settings := do
  let fromFile ←
    match o.config with
    | none => pure {}
    | some name => do
      let result ← quietly (readSettings disk (Path.join o.root name))
      orStop "" result
  let s := (fromFile.merge o.overrides).resolve o.root
  orStop "" s.validate
  return s

def readInput (disk : Disk m) (what path : String) : RunM m String :=
  onDisk (fun problem => s!"reading {what} {path}: {problem.message}") (disk.read path)

/-- The name of a file without its directory. -/
def fileName (path : String) : String := (Path.fileName? path).getD path

def skippedFinding (table : Table) (headerName : String) (l : SourceLine) : Finding :=
  let finding : Finding :=
    { severity := .info, origin := table.key, message := "preprocessor line skipped" }
  (finding.located headerName l.line).quoting l.text

def readTable (header path : String) (table : Table) : RunM m ParsedTable := do
  let parsed ← orStop s!"parsing {path}: " (ParsedTable.ofHeader header table)
  let parsed ← note parsed
  say s!"  [✓] Parsed {table.structName} ({parsed.declarations.length} declarations)"
  return parsed

def readHooks (enumSource tableSource path : String) : RunM m Hook.Catalogue := do
  let c ← orStop s!"parsing Ham catalogue from {path}: "
    (Hook.Catalogue.read enumSource tableSource)
  say s!"  [✓] Parsed Ham catalogue ({c.entries.length} hooks, {c.signatures.length} signatures)"
  return c

/-- Reads the wrapper of one structure; without its source the structure is empty. -/
def readRecord (disk : Disk m) (dir : Option String) (stem name : String) :
    RunM m RecordShape := do
  match dir with
  | none => return RecordShape.ofProperties name []
  | some dir =>
    let path := Path.join dir s!"{stem}.cpp"
    match ← quietly (disk.read path) with
    | .ok source => return RecordShape.ofProperties name (RecordProperty.ofSource source)
    | .error problem =>
      note (Logged.warn s!"skipping {path}: {problem.message}")
      return RecordShape.ofProperties name []

def readRecords (disk : Disk m) (dir : Option String) : RunM m (List RecordShape) := do
  let shapes ← RecordShape.sources.mapM fun (stem, name) => readRecord disk dir stem name
  return shapes ++ [RecordShape.entity]

/-- Reads all inputs, checks them and makes all files. -/
def prepare (disk : Disk m) (s : Settings) : RunM m (List OutputFile × Report) := do
  let header ← readInput disk "header" s.header
  let hookEnum ← readInput disk "Ham enum source" s.hookEnum
  let hookTable ← readInput disk "Ham array source" s.hookTable
  let headerName := fileName s.header
  let hookTableName := fileName s.hookTable
  let tables ← Table.all.mapM (readTable header s.header)
  let skipped := tables.flatMap fun p => p.skipped.map (skippedFinding p.table headerName)
  let hooks ← readHooks hookEnum hookTable s.hookEnum
  let issues := hooks.issues
  let verdict ← note (s.mismatch.apply issues)
  let refusal :=
    match verdict with
    | .ok () => []
    | .error fault => [Finding.ofFault fault "ham" hookTableName]
  let report := Report.empty.pushAll
    (skipped ++ issues.map (Finding.ofIssue · .warning hookTableName) ++ refusal)
  let records ← readRecords disk s.recordsDir
  let assembly : AssemblySettings := {
    glue := {
      custom := CustomRegistry.builtin.find?
      frameTick := s.frameTick
      scriptNamespace := s.scriptNamespace }
    scriptNamespace := s.scriptNamespace
    exclude := s.apiExclude
    headerName := headerName
    hookTableName := hookTableName }
  let (files, report) ← note (assemble assembly tables hooks records report)
  let report := { report with
    hooks := report.hooks.map fun h => { h with issues := issues.length } }
  say s!"  [✓] Synthesized {files.length} files"
  return (files, report)

/-- Writes the report if a path for it was given. -/
def writeReport (disk : Disk m) (report : Report) (path : Option String) : RunM m Unit := do
  match path with
  | none => return ()
  | some path =>
    onDisk (fun problem => s!"writing report {path}: {problem.message}")
      (disk.write path report.text)
    note (Logged.info s!"wrote report {path}")

def tableLine (t : TableSummary) : String :=
  s!"  {t.table}: {t.declared} declared, {t.unparsable} unparsable, {t.events} events, " ++
    s!"{t.functions} API functions, {t.flagged} flagged, {t.excluded} excluded"

def hookLine (h : HookSummary) : String :=
  s!"  ham: {h.entries} hooks, {h.detours} trampolines, " ++
    s!"{h.missingSignatures} without signature, {h.issues} issues"

def saySummary (report : Report) : RunM m Unit := do
  (report.tables.map tableLine ++ report.hooks.toList.map hookLine).forM say

/-- Writes all files, in order, below directories that are made if need be. -/
def writeFiles (disk : Disk m) (s : Settings) (files : List OutputFile) : RunM m Unit := do
  [s.nativeOut, s.typingsOut].forM fun dir => onDisk (ioMessage dir) (disk.makeDirs dir)
  files.forM fun f => do
    let path := f.path s.nativeOut s.typingsOut
    onDisk (ioMessage path) (disk.write path f.contents)
    note (Logged.info s!"wrote {path} ({f.contents.utf8ByteSize} bytes)")

def programLine : String := "nodegen 0.1.0"

/-- A full run. Errors in the report leave all files unwritten. -/
def generate (disk : Disk m) (o : RunOptions) (reportPath : Option String) (dryRun : Bool) :
    RunM m Bool := do
  say programLine
  let s ← loadSettings disk o
  let (files, report) ← prepare disk s
  saySummary report
  if report.hasErrors then
    writeReport disk report reportPath
    throw (.message s!"{report.count .error} error(s); no files written")
  let paths := files.map (·.path s.nativeOut s.typingsOut)
  if dryRun then paths.forM fun path => say s!"  [dry-run] {path}"
  else writeFiles disk s files
  writeReport disk { report with files := paths } reportPath
  let done := if dryRun then "planned" else "written"
  say s!"\n✅ {paths.length} files {done}"
  return true

/-- A run that writes nothing but a report. It fails if the report has errors or some declaration
could not be read. -/
def check (disk : Disk m) (o : RunOptions) (reportPath : Option String) : RunM m Bool := do
  let s ← loadSettings disk o
  let (_, report) ← prepare disk s
  saySummary report
  writeReport disk report reportPath
  if 0 < report.unparsable || report.hasErrors then
    complain s!"❌ {report.unparsable} unparsable declaration(s), {report.count .error} error(s)"
    return false
  else
    say "✅ No errors found"
    return true

def version : RunM m Bool := do
  say programLine
  say "nodemod code generator"
  say "License: Apache-2.0"
  return true

def command (disk : Disk m) (o : RunOptions) : Command → RunM m Bool
  | .generate report dryRun => generate disk o report dryRun
  | .check report => check disk o report
  | .version => version

end Run

/-- What a finished run leaves behind besides files. -/
structure RunResult where
  code : Nat
  stdout : String
  stderr : String
  deriving DecidableEq, Repr

/-- How a run ends. -/
inductive RunOutcome where
  | usage (u : Usage)
  | finished (r : RunResult)
  | overflow
  deriving DecidableEq, Repr

namespace Run

/-- Lines, of which the last comes first, as text. -/
def textOf (lines : List String) : String := String.join (lines.reverse.map (· ++ "\n"))

def outcomeOf (c : Console) : Except RunFailure Bool → RunOutcome
  | .ok success => .finished ⟨if success then 0 else 1, textOf c.out, textOf c.err⟩
  | .error (.message text) => .finished ⟨1, textOf c.out, textOf (s!"Error: {text}" :: c.err)⟩
  | .error .counterOverflow => .overflow

def ofArgs {m : Type → Type} [Monad m] (disk : Disk m) (args : List String) :
    m (RunOutcome × List Remark) := do
  match CommandLine.read args with
  | .error u => return (.usage u, [])
  | .ok (o, cmd) =>
    let (result, console) ← ((command disk o cmd).run).run {}
    return (outcomeOf console result, console.journal.reverse.flatten)

end Run

end ScriptGlue
