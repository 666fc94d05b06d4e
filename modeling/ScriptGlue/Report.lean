import ScriptGlue.Hook.Consistency
import ScriptGlue.Json.Output
import ScriptGlue.Text.Blank

/-!
# Reports

What a run has found, in a form that other programs read: counts for each table and for the hooks,
findings with their places, and the files written.
-/
namespace ScriptGlue

inductive Severity where
  | error
  | warning
  | info
  deriving DecidableEq, Repr

def Severity.label : Severity → String
  | error => "error"
  | warning => "warning"
  | info => "info"

/-- One finding about a table or about the hooks. -/
structure Finding where
  severity : Severity
  /-- The key of the table, or `ham`. -/
  origin : String
  function : Option String := none
  /-- A file and a line in it. -/
  location : Option (String × Nat) := none
  message : String
  /-- The source line that the finding is about. -/
  quote : Option String := none
  deriving DecidableEq, Repr

namespace Finding

def located (f : Finding) (file : String) (line : Nat) : Finding :=
  { f with location := some (file, line) }

def quoting (f : Finding) (text : String) : Finding :=
  { f with quote := some (Text.trim text) }

/-- A fault as a finding, placed if the fault is. -/
def ofFault (fault : Fault) (origin file : String) : Finding where
  severity := .error
  origin := origin
  location := fault.span?.map fun span => (file, span.line)
  message := fault.message

/-- An inconsistency of the hooks as a finding, placed if it has a line. -/
def ofIssue (issue : Hook.Issue) (severity : Severity) (file : String) : Finding where
  severity := severity
  origin := "ham"
  location := issue.line?.map fun line => (file, line)
  message := issue.message

def json (f : Finding) : JsonValue :=
  .record [
    ("severity", .text f.severity.label),
    ("origin", .text f.origin),
    ("function", .ofOption .text f.function),
    ("location", .ofOption (fun (file, line) => .record [("file", .text file),
      ("line", .number line)]) f.location),
    ("message", .text f.message),
    ("original", .ofOption .text f.quote)]

end Finding

structure TableSummary where
  table : String
  declared : Nat
  parsed : Nat
  unparsable : Nat
  /-- Bindings that are written but not installed. -/
  flagged : Nat
  /-- Functions without a binding because of their names. -/
  excluded : Nat
  events : Nat
  functions : Nat
  deriving DecidableEq, Repr

def TableSummary.json (s : TableSummary) : JsonValue :=
  .record [
    ("table", .text s.table),
    ("declared", .number s.declared),
    ("parsed", .number s.parsed),
    ("unparsable", .number s.unparsable),
    ("flagged", .number s.flagged),
    ("excluded", .number s.excluded),
    ("events", .number s.events),
    ("api_functions", .number s.functions)]

structure HookSummary where
  entries : Nat
  signatures : Nat
  detours : Nat
  missingSignatures : Nat
  issues : Nat
  deriving DecidableEq, Repr

def HookSummary.json (s : HookSummary) : JsonValue :=
  .record [
    ("entries", .number s.entries),
    ("signatures", .number s.signatures),
    ("trampolines", .number s.detours),
    ("missing_signatures", .number s.missingSignatures),
    ("issues", .number s.issues)]

/-- All that a run has found. -/
structure Report where
  success : Bool
  tables : List TableSummary
  hooks : Option HookSummary
  findings : List Finding
  /-- The files written, or those that a dry run would write. -/
  files : List String
  deriving DecidableEq, Repr

namespace Report

/-- A run that has found nothing yet. -/
def empty : Report := ⟨true, [], none, [], []⟩

/-- Adds a finding; an error ends success. -/
def push (r : Report) (f : Finding) : Report :=
  { r with
    success := r.success && f.severity != .error
    findings := r.findings ++ [f] }

def pushAll (r : Report) (fs : List Finding) : Report := fs.foldl push r

def count (r : Report) (s : Severity) : Nat := r.findings.countP (·.severity = s)

def hasErrors (r : Report) : Bool := 0 < r.count .error

/-- How many declarations could not be read. -/
def unparsable (r : Report) : Nat := r.tables.foldr (·.unparsable + ·) 0

def json (r : Report) : JsonValue :=
  .record [
    ("success", .bool r.success),
    ("tables", .list (r.tables.map (·.json))),
    ("ham", .ofOption HookSummary.json r.hooks),
    ("diagnostics", .list (r.findings.map (·.json))),
    ("files", .list (r.files.map .text))]

def text (r : Report) : String := r.json.pretty

end Report

end ScriptGlue
