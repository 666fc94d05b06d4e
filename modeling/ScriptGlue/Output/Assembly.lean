import ScriptGlue.Disk.Path
import ScriptGlue.Glue.Binding
import ScriptGlue.Glue.Handler
import ScriptGlue.Glue.Typing
import ScriptGlue.Hook.DetourFile
import ScriptGlue.Output.TypingFiles
import ScriptGlue.Report
import ScriptGlue.Table.Body

/-!
# Assembly

All files of a run, and what there is to report about them. Tables of handlers are positional: entry
`i` belongs to declaration `i`.
-/
namespace ScriptGlue.Output

open Code

inductive FileKind where
  | native
  | typings
  deriving DecidableEq, Repr

structure OutputFile where
  kind : FileKind
  name : String
  contents : String
  deriving DecidableEq, Repr

/-- What the files depend on besides the inputs. -/
structure AssemblySettings where
  glue : GlueSettings
  /-- The namespace of declaration files. -/
  scriptNamespace : String
  /-- Functions whose names contain one of these texts get no binding. -/
  exclude : List String := []
  /-- The names of the inputs, for findings. -/
  headerName : String := "eiface.h"
  hookTableName : String := "ham_manager.cpp"

def handlerIncludes : List String :=
  ["<extdll.h>", "node/nodeimpl.hpp", "node/events.hpp", "meta_api.h", "node/utils.hpp",
    "structures/structures.hpp"]

def bindingIncludes : List String :=
  ["<string>", "v8.h", "extdll.h", "node/utils.hpp", "structures/structures.hpp"]

def detoursFile : String := "ham_callbacks.cpp"

/-! ### Handlers -/

/-- The handlers of a table in one phase, in the order of the declarations. -/
def eventSlots (g : GlueSettings) (p : ParsedTable) (phase : Phase) : Logged (List EventSlot) :=
  Logged.forEach (·.eventSlot g p.table phase) p.declarations

def dispatchTable (table : Table) (phase : Phase) (slots : List EventSlot) : ListDef :=
  ⟨s!"{table.structName} {table.dispatchSymbol phase}", slots.map fun s => ⟨s.entry, none⟩⟩

def phaseTitle : Phase → String
  | .base => "/* BASE EVENTS */"
  | .post => "/* POST EVENTS */"

def phaseRemark : Phase → String
  | .base => "// base"
  | .post => "// post"

def phaseLayout (g : GlueSettings) (table : Table) (phase : Phase) (slots : List EventSlot) :
    Layout :=
  .line (phaseTitle phase) ::
    slots.flatMap (fun s => Layout.ofText (s.code g.scriptNamespace) ++ [Layout.blank]) ++
    (dispatchTable table phase slots).layout ++ [Layout.blank]

/-- The statement that makes an event known. -/
def registration (event : String) : String := s!"event::register_event(\"{event}\", \"\");"

def eventNames (slots : List EventSlot) : List String :=
  slots.filterMap fun s => s.handler?.map (·.event)

def registrar (table : Table) (base post : List EventSlot) : FunctionDef where
  signature := s!"void {table.eventRegistrar}()"
  body :=
    phaseRemark .base :: (eventNames base).map registration ++
      phaseRemark .post :: (eventNames post).map registration
  braceOnNewLine := true

def flagFinding (a : AssemblySettings) (table : Table) (d : Declaration) (message : String) :
    Finding where
  severity := .warning
  origin := table.key
  function := some d.name
  location := some (a.headerName, d.line)
  message := message

def eventFindings (a : AssemblySettings) (p : ParsedTable) (slots : List EventSlot) :
    List Finding :=
  (p.declarations.zip slots).flatMap fun (d, slot) =>
    slot.flags.map fun f => flagFinding a p.table d f.message

def eventTypings (g : GlueSettings) (p : ParsedTable) (phase : Phase) : List TypedSignature :=
  p.declarations.filterMap (·.eventTyping? g p.table phase)

/-- A source with its declarations, and what was found while it was made. -/
structure SourceOutput where
  source : String
  typings : List TypedSignature
  findings : List Finding
  deriving DecidableEq, Repr

/-- The source of all handlers of a table. Both phases raise the same flags, which are reported
once. -/
def handlersSource (a : AssemblySettings) (p : ParsedTable) : Logged (SourceOutput × Nat) := do
  let base ← eventSlots a.glue p .base
  let post ← eventSlots a.glue p .post
  let layout :=
    .line banner :: includes handlerIncludes ++ [Layout.blank] ++
      phaseLayout a.glue p.table .base base ++ phaseLayout a.glue p.table .post post ++
      (registrar p.table base post).layout
  return ({
    source := Layout.render layout
    typings := eventTypings a.glue p .base ++ eventTypings a.glue p .post
    findings := eventFindings a p base }, (eventNames base).length + (eventNames post).length)

/-! ### Bindings -/

/-- Whether a function gets no binding. -/
def isExcluded (a : AssemblySettings) (d : Declaration) : Bool :=
  a.exclude.any (Text.contains d.name)

def installer (table : Table) (bindings : List Binding) : ListDef where
  head := s!"static std::pair<std::string, v8::FunctionCallback> {table.installerSymbol}[]"
  items := (bindings.filter (·.status == .ready)).map fun b => ⟨b.entry, none⟩

/-- The line about a binding that is not installed. -/
def failureLine? (b : Binding) : Option String :=
  let text := Text.trim b.declaration.text
  match b.status with
  | .ready => none
  | .flagged reason => some s!"// FAILED ({reason}): {text}"
  | .unparsable => some s!"// FAILED (unparsable): {text}"

/-- The findings about a binding. Types without a mapping are reported with the reason why it is not
installed. -/
def bindingFindings (a : AssemblySettings) (table : Table) (b : Binding) : List Finding :=
  let flags := b.flags.filter (!·.isUnknownType)
  flags.map (fun f => flagFinding a table b.declaration s!"API body: {f.message}") ++
    match b.status with
    | .flagged reason =>
      [(flagFinding a table b.declaration s!"API not installed: {reason}").quoting
        b.declaration.text]
    | _ => []

def installFunction (table : Table) : FunctionDef where
  signature := s!"v8::Local<v8::ObjectTemplate> {table.functionRegistrar}(v8::Isolate* isolate)"
  body := [
    "v8::Local<v8::ObjectTemplate> object = v8::ObjectTemplate::New(isolate);",
    s!"for (auto &routine : {table.installerSymbol}) \x7b",
    "  object->Set(v8::String::NewFromUtf8(isolate, routine.first.c_str(), " ++
      "v8::NewStringType::kNormal).ToLocalChecked(), " ++
      "v8::FunctionTemplate::New(isolate, routine.second));",
    "\x7d",
    "",
    "return object;"]

def bindingsLayout (table : Table) (bindings : List Binding) : Layout :=
  let failures := bindings.filterMap failureLine?
  .line banner :: includes bindingIncludes ++
    [Layout.blank, .line table.globalDeclaration, Layout.blank] ++
    bindings.flatMap (fun b => b.definition.toList.flatMap (·.layout ++ [Layout.blank])) ++
    (installer table bindings).layout ++ [Layout.blank] ++ (installFunction table).layout ++
    (if failures.isEmpty then [] else Layout.blank :: failures.map .line)

def boundDeclarations (a : AssemblySettings) (p : ParsedTable) : List Declaration :=
  p.declarations.filter (!isExcluded a ·)

def bindings (a : AssemblySettings) (p : ParsedTable) : Logged (List Binding) :=
  Logged.forEach (·.binding a.glue p.table) (boundDeclarations a p)

def apiTypings (g : GlueSettings) (table : Table) (bs : List Binding) : List TypedSignature :=
  (bs.filter (·.status == .ready)).map (·.declaration.apiTyping g table)

def isFlagged (b : Binding) : Bool :=
  match b.status with
  | .flagged _ => true
  | _ => false

def bindingsSource (a : AssemblySettings) (p : ParsedTable) (bs : List Binding) : SourceOutput where
  source := (bindingsLayout p.table bs).render
  typings := apiTypings a.glue p.table bs
  findings := bs.flatMap (bindingFindings a p.table)

/-! ### Tables and hooks -/

/-- A finding about a declaration that could not be read. -/
def unparsableFinding (a : AssemblySettings) (table : Table) (d : Declaration) : Finding :=
  (flagFinding a table d "unparsable declaration").quoting d.text

structure TableOutput where
  handlers : SourceOutput
  bindings : SourceOutput
  summary : TableSummary
  deriving DecidableEq, Repr

def summarize (a : AssemblySettings) (p : ParsedTable) (events : Nat) (bs : List Binding) :
    TableSummary where
  table := p.table.key
  declared := p.declarations.length
  parsed := p.declarations.length - p.unparsable.length
  unparsable := p.unparsable.length
  flagged := bs.countP isFlagged
  excluded := p.declarations.countP (isExcluded a)
  events := events
  functions := bs.countP (·.status == .ready)

def tableOutput (a : AssemblySettings) (p : ParsedTable) : Logged TableOutput := do
  let key := p.table.key
  let _ ← Logged.forEach
    (fun (d : Declaration) => Logged.warn s!"{key}: {d.name} left as NULL (line {d.line})")
    p.unparsable
  let (handlers, events) ← handlersSource a p
  let bs ← bindings a p
  if !bs.any (·.status == .ready) then Logged.warn s!"{key}: no API function installed"
  let s := summarize a p events bs
  Logged.info <| s!"{key}: {s.declared} declared, {s.unparsable} unparsable, " ++
    s!"{s.functions} API functions, {s.flagged} flagged"
  return ⟨handlers, bindingsSource a p bs, s⟩

/-- All findings about a table, in order. -/
def tableFindings (a : AssemblySettings) (p : ParsedTable) (out : TableOutput) : List Finding :=
  p.unparsable.map (unparsableFinding a p.table) ++ out.handlers.findings ++ out.bindings.findings

/-- A finding about a hook without a signature. -/
def missingFinding (a : AssemblySettings) (e : Hook.Entry) : Finding where
  severity := .info
  origin := "ham"
  function := some s!"Ham_{e.name}"
  message := s!"id {e.id} has no row in {a.hookTableName}; callback slot is nullptr"

def missingEntries (c : Hook.Catalogue) : List Hook.Entry := c.entries.filter (·.signature.isNone)

/-- The counts of hooks. A number of inconsistencies that is known already stays. -/
def summarizeHooks (c : Hook.Catalogue) (known : Option HookSummary) : HookSummary where
  entries := c.entries.length
  signatures := c.signatures.length
  detours := c.detours.length
  missingSignatures := (missingEntries c).length
  issues := (known.map (·.issues)).getD 0

/-! ### All files -/

/-- All files, in the order in which they are written. -/
def outputFiles (scriptNamespace : String) (tables : List (Table × TableOutput))
    (c : Hook.Catalogue) (records : List RecordShape) : List OutputFile :=
  let native (name contents : String) : OutputFile := ⟨.native, name, contents⟩
  let typings (name contents : String) : OutputFile := ⟨.typings, name, contents⟩
  tables.flatMap (fun (t, out) =>
    [native t.eventsFile out.handlers.source, native t.functionsFile out.bindings.source]) ++
    [native detoursFile c.detourFile,
      typings enumsFile (enumsText scriptNamespace),
      typings eventsFile (eventsText scriptNamespace
        (tables.flatMap (fun (_, out) => out.handlers.typings))),
      typings recordsFile (recordsText scriptNamespace records)] ++
    tables.map (fun (t, out) =>
      typings t.typingsFile (surfaceText scriptNamespace t out.bindings.typings)) ++
    [typings hooksFile (hooksText scriptNamespace c), typings indexFile (indexText scriptNamespace)]

def assemble (a : AssemblySettings) (tables : List ParsedTable) (c : Hook.Catalogue)
    (records : List RecordShape) (report : Report) : Logged (List OutputFile × Report) := do
  let outs ← Logged.forEach (tableOutput a) tables
  let hookLine := s!"ham: {c.detours.length} trampolines for {c.entries.length} entries"
  Logged.info hookLine
  let findings :=
    (tables.zip outs).flatMap (fun (p, out) => tableFindings a p out) ++
      (missingEntries c).map (missingFinding a)
  let report := { report.pushAll findings with
    tables := report.tables ++ outs.map (·.summary)
    hooks := some (summarizeHooks c report.hooks) }
  let named := (tables.map (·.table)).zip outs
  return (outputFiles a.scriptNamespace named c records, report)

/-- Where a file goes. -/
def OutputFile.path (nativeDir typingsDir : String) (f : OutputFile) : String :=
  match f.kind with
  | .native => Path.join nativeDir f.name
  | .typings => Path.join typingsDir f.name

end ScriptGlue.Output
