import ScriptGlue.Code.Native
import ScriptGlue.Glue.Basic

/-!
# Bindings

A binding lets scripts call a function of a table: it converts the arguments, calls the function and
converts the result. Arrays and vectors are copied into native variables first.
-/
namespace ScriptGlue

open Code Mapping

/-- An array that is copied before the call and freed after it. -/
structure StagedArray where
  name : String
  element : String
  /-- The method that reads an element. -/
  getter : String
  length : String
  lengthType : String
  /-- The place of the script array among the arguments. -/
  index : Nat
  deriving DecidableEq, Repr

/-- A native variable that is set up before the call. -/
inductive Staging where
  /-- Where the function writes a trace result. -/
  | traceResult (name : String)
  | vector (name : String) (index : Nat)
  | array (a : StagedArray)
  deriving DecidableEq, Repr

/-- An argument that must be untyped memory. -/
structure MemoryCheck where
  index : Nat
  type : String
  deriving DecidableEq, Repr

inductive CallArg where
  /-- The address of the variable for the trace result. -/
  | traceResult (name : String)
  /-- A variable that has been set up. -/
  | staged (name : String)
  | converted (c : Conversion)
  /-- Scripts do not pass the argument. -/
  | missing (name : String)
  deriving DecidableEq, Repr

inductive Outcome where
  /-- There is none; a trace result that was written becomes the result. -/
  | nothing (traceResult : Option String)
  | text
  | value (expr : String)
  deriving DecidableEq, Repr

structure CallBody where
  staging : List Staging
  checks : List MemoryCheck
  callee : String
  args : List CallArg
  outcome : Outcome
  deriving DecidableEq, Repr

namespace StagedArray

def statements (a : StagedArray) : List String :=
  ["",
    s!"// Convert script array to {a.element} array for {a.name}",
    s!"v8::Local<v8::Array> {a.name}_array = v8::Local<v8::Array>::Cast(info[{a.index}]);",
    s!"{a.lengthType} {a.length} = {a.name}_array->Length();",
    s!"{a.element}* {a.name} = new {a.element}[{a.length}];",
    s!"for (int j = 0; j < (int){a.length}; j++) \x7b",
    s!"  {a.name}[j] = {a.name}_array->Get(context, j).ToLocalChecked()" ++
      s!"->{a.getter}(context).ToChecked();",
    "\x7d"]

def release (a : StagedArray) : String := s!"delete[] {a.name}; // Free allocated array"

end StagedArray

namespace Staging

def statements : Staging → List String
  | traceResult name => [s!"TraceResult {name}_result = \x7b\x7d;"]
  | vector name index =>
    [s!"vec3_t {name}_vec;",
      s!"utils::js2vect(isolate, v8::Local<v8::Array>::Cast(info[{index}]), {name}_vec);"]
  | array a => a.statements

/-- The statements that clean up after the call. -/
def cleanup : Staging → List String
  | array a => [a.release]
  | _ => []

end Staging

def MemoryCheck.statements (function : String) (c : MemoryCheck) : List String :=
  [s!"if (!info[{c.index}]->IsExternal()) \x7b",
    s!"  printf(\"Warning: {function} parameter {c.index} ({c.type}) " ++
      "is not External, using nullptr\\n\");",
    "\x7d"]

def CallArg.text : CallArg → String
  | traceResult name => s!"&{name}_result"
  | staged name => name
  | converted c => c.expr
  | missing name => s!"nullptr /* missing parameter: {name} */"

def callText (callee : String) (args : List CallArg) : String :=
  let list := ", ".intercalate (args.map (·.text))
  s!"{callee}({list})"

def Outcome.statements (call : String) : Outcome → List String
  | nothing none => [s!"{call};"]
  | nothing (some name) =>
    [s!"{call};",
      s!"info.GetReturnValue().Set(structures::wrapTraceResult(isolate, &{name}_result));"]
  | text =>
    [s!"const char* temp_str = {call};",
      "info.GetReturnValue().Set(v8::String::NewFromUtf8(isolate, " ++
        "temp_str ? temp_str : \"\").ToLocalChecked());"]
  | value expr => [s!"info.GetReturnValue().Set({expr});"]

def CallBody.statements (function : String) (b : CallBody) : List String :=
  let checks := b.checks.flatMap (·.statements function)
  b.staging.flatMap (·.statements) ++ (if checks.isEmpty then [] else "" :: checks) ++
    "" :: b.outcome.statements (callText b.callee b.args) ++ b.staging.flatMap (·.cleanup)

namespace Declaration

def elementOf (type : String) : String × String :=
  let element := baseName type
  if element = "float" then ("float", "NumberValue")
  else if element = "unsigned char" || element = "byte" then ("unsigned char", "Int32Value")
  else ("int", "Int32Value")

def stagedArray (d : Declaration) (index : Nat) (a : ScriptArg) (length : String) : StagedArray :=
  let (element, getter) := elementOf a.type
  { name := a.name, element := element, getter := getter, length := length,
    lengthType := ((d.fixed.find? (·.name = length)).map (·.type)).getD "int", index := index }

def isVector (type : String) : Bool := canonical type == "vec3_t"

/-- What an argument needs before the call. -/
def staging? (d : Declaration) (index : Nat) (a : ScriptArg) : Option Staging :=
  if isVector a.type then some (.vector a.name index)
  else a.length.map fun length => .array (d.stagedArray index a length)

/-- Whether an argument can only be untyped memory. -/
def memoryCheck? (index : Nat) (a : ScriptArg) : Option MemoryCheck :=
  if !isVector a.type && a.length.isNone && isPointerType a.type && !isCharPointerType a.type &&
      !isRecord a.type then some ⟨index, a.type⟩
  else none

/-- All that is set up before the call. -/
def callStaging (d : Declaration) : List Staging :=
  d.traceResult?.toList.map (.traceResult ·.name) ++
    (d.callerArgs.mapIdx (d.staging? · ·)).filterMap id

def callChecks (d : Declaration) : List MemoryCheck :=
  (d.callerArgs.mapIdx memoryCheck?).filterMap id

def callArg (d : Declaration) (p : Parameter) : Logged (CallArg × List Flag) :=
  if d.traceResult?.any (·.name = p.name) then pure (.traceResult p.name, [])
  else if d.isLengthName p.name then pure (.staged p.name, [])
  else
    match d.callerArgs.findIdx? (·.name = p.name) with
    | none => pure (.missing p.name, [])
    | some index =>
      if d.callerArgs[index]?.any (·.length.isSome) then pure (.staged p.name, [])
      else do
        let c ← toNative p.type s!"info[{index}]" p.name
        let flags ← c.note p.name p.type
        return (.converted c, flags)

def isText (type : String) : Bool :=
  canonical type == "char*" || canonical type == "const char*"

def outcome (d : Declaration) (call : String) : Logged (Outcome × List Flag) :=
  if d.returnsVoid then pure (.nothing (d.traceResult?.map (·.name)), [])
  else if isText d.returnType then pure (.text, [])
  else do
    let c ← toScript d.returnType call none
    let flags ← c.note "return" d.returnType
    return (.value c.expr, flags)

/-- The generated part of a binding, with its flags: those of the arguments, then those of the
result. -/
def callBody (d : Declaration) (table : Table) : Logged (CallBody × List Flag) := do
  let args ← Logged.forEach d.callArg d.fixed
  let callee := table.callee d.name
  let (outcome, flags) ← d.outcome (callText callee (args.map (·.1)))
  return ({
    staging := d.callStaging
    checks := d.callChecks
    callee := callee
    args := args.map (·.1)
    outcome := outcome }, args.flatMap (·.2) ++ flags)

end Declaration

/-- Whether scripts can use a binding. -/
inductive BindingStatus where
  | ready
  /-- The binding is written but not installed. -/
  | flagged (reason : String)
  | unparsable
  deriving DecidableEq, Repr

structure Binding where
  declaration : Declaration
  symbol : String
  scriptName : String
  definition : Option FunctionDef
  status : BindingStatus
  flags : List Flag
  deriving DecidableEq, Repr

namespace Binding

def entry (b : Binding) : String := s!"\x7b \"{b.scriptName}\", {b.symbol} \x7d"

def unknownTypes (flags : List Flag) : String :=
  ", ".intercalate ((flags.filter (·.isUnknownType)).map (·.message))

def statusOf (flags : List Flag) : BindingStatus :=
  if flags.any (·.isUnknownType) then .flagged s!"unmapped type: {unknownTypes flags}" else .ready

end Binding

namespace Declaration

def bindingDef (g : GlueSettings) (table : Table) (d : Declaration) (flags : List Flag)
    (statements : List String) : FunctionDef where
  comments := s!"{g.scriptNamespace}.{table.key}.{d.scriptName}();" ::
    flags.map fun f => s!"FLAGGED: {f.message}"
  signature := s!"void {d.apiSymbol table}(const v8::FunctionCallbackInfo<v8::Value>& info)"
  body := ("V8_STUFF();" :: statements).flatMap bodyLines
  braceOnNewLine := true

def binding (g : GlueSettings) (table : Table) (d : Declaration) : Logged Binding := do
  let make (definition : Option FunctionDef) (status : BindingStatus) (flags : List Flag) :
      Binding := ⟨d, d.apiSymbol table, d.scriptName, definition, status, flags⟩
  if d.isUnparsable then return make none .unparsable []
  else
    match (g.custom table d.name).bind (·.apiBody) with
    | some body => return make (some (d.bindingDef g table [] [body])) .ready []
    | none => do
      let (body, flags) ← d.callBody table
      if flags.any (·.isUnknownType) then
        Logged.warn s!"{d.name}: API body flagged ({Binding.unknownTypes flags})"
      return make (some (d.bindingDef g table flags (body.statements d.name)))
        (Binding.statusOf flags) flags

end Declaration

end ScriptGlue
