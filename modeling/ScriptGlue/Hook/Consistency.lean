import ScriptGlue.Fault
import ScriptGlue.Hook.Catalogue
import ScriptGlue.Journal
import ScriptGlue.Text.Casing
import ScriptGlue.Text.Search

/-!
# Consistency of the hook catalogue

The enumeration and the signature array are kept by hand in two places. Here they are compared:
numbers of entries, hooks without a row, counts of parameters, and names against keys.
-/
namespace ScriptGlue.Hook

inductive MismatchPolicy where
  | warn
  | error
  deriving DecidableEq, Repr

inductive Issue where
  | countMismatch (entries rows : Nat)
  | missingSignature (name : String) (id : Nat)
  | paramCountMismatch (key : String) (declared actual line : Nat)
  | nameMismatch (name : String) (id : Nat) (expected found : String) (line : Nat)
  deriving DecidableEq, Repr

namespace Issue

def line? : Issue → Option Nat
  | paramCountMismatch _ _ _ line | nameMismatch _ _ _ _ line => some line
  | countMismatch _ _ | missingSignature _ _ => none

def message : Issue → String
  | countMismatch entries rows =>
    s!"HamType has {entries} entries but g_hamFunctions has {rows} rows"
  | missingSignature name id => s!"Ham_{name} (id {id}) has no g_hamFunctions row"
  | paramCountMismatch key declared actual _ =>
    s!"\"{key}\" declares {declared} params but lists {actual}"
  | nameMismatch name id expected found _ =>
    s!"Ham_{name} (id {id}) expects key \"{expected}\", row has \"{found}\""

end Issue

/-- How the names of hooks of single games start, and how their keys do. -/
def gameMarks : List (String × String) :=
  [("CS_", "cstrike_"), ("DOD_", "dod_"), ("TFC_", "tfc_"), ("NS_", "ns_"), ("ESF_", "esf_"),
    ("SC_", "sc_"), ("TS_", "ts_"), ("OPF_", "gearbox_")]

def expectedKey (name : String) : String :=
  let marked := gameMarks.findSome? fun (mark, keyMark) =>
    (Text.dropLead? mark name).map (keyMark ++ ·)
  Text.lower (marked.getD name)

def Entry.issue? (e : Entry) : Option Issue :=
  match e.signature with
  | none => some (.missingSignature e.name e.id)
  | some s =>
    if expectedKey e.name = s.key then none
    else some (.nameMismatch e.name e.id (expectedKey e.name) s.key s.line)

def Signature.issue? (s : Signature) : Option Issue :=
  if s.declaredCount = s.params.length then none
  else some (.paramCountMismatch s.key s.declaredCount s.params.length s.line)

/-- All inconsistencies: of the numbers, of the hooks, of the rows. -/
def Catalogue.issues (c : Catalogue) : List Issue :=
  (if c.entries.length = c.signatures.length then []
    else [.countMismatch c.entries.length c.signatures.length]) ++
    c.entries.filterMap (·.issue?) ++ c.signatures.filterMap (·.issue?)

/-- Remarks on every inconsistency; a strict policy refuses the catalogue if there is any. -/
def MismatchPolicy.apply (policy : MismatchPolicy) (issues : List Issue) :
    Logged (Except Fault Unit) := do
  let _ ← Logged.forEach (fun (i : Issue) => Logged.warn s!"ham: {i.message}") issues
  match policy, issues with
  | .error, first :: _ =>
    return .error (.catalogueMismatch s!"{issues.length} issue(s), first: {first.message}")
  | _, _ => return .ok ()

end ScriptGlue.Hook
