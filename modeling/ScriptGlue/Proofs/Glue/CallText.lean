import ScriptGlue.Proofs.Code.Rendering
import ScriptGlue.Proofs.Glue.Passing

/-!
# The text of a binding

What a generated binding sets up, checks, calls and frees is told here line by line, from the
arguments that callers pass and with nothing in between. The lines are those that the binding is
written with.
-/
namespace ScriptGlue

open Code Mapping

namespace Declaration

/-- The text that a parameter has in the native call: the address of a trace result, the variable
that was set up for an array or a length, and for all else the conversion of the script argument at
the place that the parameter itself has among those that callers pass. -/
inductive PassedText (d : Declaration) (p : Parameter) : String → Prop where
  | traceResult (out : d.traceResult? = some p) : PassedText d p s!"&{p.name}_result"
  | array (out : d.traceResult? ≠ some p) {a : ScriptArg} (passed : a ∈ d.passedArgs)
      (own : a.param = p) (folded : a.length.isSome) : PassedText d p p.name
  | length (out : d.traceResult? ≠ some p) {a : ScriptArg} (array : a ∈ d.scriptArgs)
      (absorbed : a.length = some p.name) : PassedText d p p.name
  | converted (out : d.traceResult? ≠ some p) {index : Nat} {a : ScriptArg}
      (place : d.passedArgs[index]? = some a) (own : a.param = p) (single : a.length = none)
      (kept : ∀ b ∈ d.scriptArgs, b.length ≠ some p.name) :
      PassedText d p (toNative p.type s!"info[{index}]" p.name).value.expr

theorem PassedAs.text {d : Declaration} {p : Parameter} {arg : CallArg}
    (passed : d.PassedAs p arg) : d.PassedText p arg.text := by
  cases passed with
  | traceResult out => exact .traceResult out
  | array out passed own folded => exact .array out passed own folded
  | length out array absorbed => exact .length out array absorbed
  | converted out place own single kept => exact .converted out place own single kept

def nativeCall (d : Declaration) (table : Table) (texts : List String) : String :=
  let callee :=
    match table with
    | .dll => s!"(*gpGamedllFuncs->dllapi_table->{d.name})"
    | .engine => s!"(*g_engfuncs.{d.name})"
  let list := ", ".intercalate texts
  s!"{callee}({list})"

/-! ### Lines by argument -/

def copyLines (d : Declaration) (index : Nat) (a : ScriptArg) (length : String) : List String :=
  let (element, getter) := elementOf a.type
  let lengthType := ((d.fixed.find? (·.name = length)).map (·.type)).getD "int"
  ["",
    s!"// Convert script array to {element} array for {a.name}",
    s!"v8::Local<v8::Array> {a.name}_array = v8::Local<v8::Array>::Cast(info[{index}]);",
    s!"{lengthType} {length} = {a.name}_array->Length();",
    s!"{element}* {a.name} = new {element}[{length}];",
    s!"for (int j = 0; j < (int){length}; j++) \x7b",
    s!"  {a.name}[j] = {a.name}_array->Get(context, j).ToLocalChecked()" ++
      s!"->{getter}(context).ToChecked();",
    "\x7d"]

/-- The lines that set up a vector or an array from the script argument at its place. -/
def argSetup (d : Declaration) (index : Nat) (a : ScriptArg) : List String :=
  if canonical a.type = "vec3_t" then
    [s!"vec3_t {a.name}_vec;",
      s!"utils::js2vect(isolate, v8::Local<v8::Array>::Cast(info[{index}]), {a.name}_vec);"]
  else
    match a.length with
    | some length => d.copyLines index a length
    | none => []

/-- The lines that warn about what is no untyped memory where only that can be. -/
def argWarning (d : Declaration) (index : Nat) (a : ScriptArg) : List String :=
  if canonical a.type ≠ "vec3_t" ∧ a.length = none ∧ isPointerType a.type = true ∧
      isCharPointerType a.type = false ∧ isRecord a.type = false then
    [s!"if (!info[{index}]->IsExternal()) \x7b",
      s!"  printf(\"Warning: {d.name} parameter {index} ({a.type}) " ++
        "is not External, using nullptr\\n\");",
      "\x7d"]
  else []

def argRelease (a : ScriptArg) : List String :=
  if canonical a.type ≠ "vec3_t" ∧ a.length ≠ none then
    [s!"delete[] {a.name}; // Free allocated array"]
  else []

/-! ### Lines of a binding -/

/-- What is set up before the native call: a trace result, then each argument from its own place. -/
def setupLines (d : Declaration) : List String :=
  d.traceResult?.toList.map (fun p => s!"TraceResult {p.name}_result = \x7b\x7d;") ++
    (d.passedArgs.mapIdx d.argSetup).flatten

def warningLines (d : Declaration) : List String :=
  let warnings := (d.passedArgs.mapIdx d.argWarning).flatten
  if warnings = [] then [] else "" :: warnings

def resultLines (d : Declaration) (call : String) : List String :=
  if d.returnsVoid then
    s!"{call};" :: d.traceResult?.toList.map fun p =>
      s!"info.GetReturnValue().Set(structures::wrapTraceResult(isolate, &{p.name}_result));"
  else if canonical d.returnType = "char*" ∨ canonical d.returnType = "const char*" then
    [s!"const char* temp_str = {call};",
      "info.GetReturnValue().Set(v8::String::NewFromUtf8(isolate, " ++
        "temp_str ? temp_str : \"\").ToLocalChecked());"]
  else
    let value := (toScript d.returnType call none).value.expr
    [s!"info.GetReturnValue().Set({value});"]

/-- All statements of a binding, for a native call with the given texts as its arguments. -/
def callLines (d : Declaration) (table : Table) (texts : List String) : List String :=
  "V8_STUFF();" :: d.setupLines ++ d.warningLines ++
    "" :: d.resultLines (d.nativeCall table texts) ++ d.passedArgs.flatMap argRelease

/-- The lines of a binding without the remarks above it. -/
def bindingLines (d : Declaration) (table : Table) (texts : List String) : List String :=
  [s!"void sf_{table.key}_{d.name}(const v8::FunctionCallbackInfo<v8::Value>& info)", "\x7b"] ++
    insideLines (d.callLines table texts) ++ ["\x7d"]

/-! ### The lines that are written -/

theorem callText_eq (d : Declaration) (table : Table) (args : List CallArg) :
    callText (table.callee d.name) args = d.nativeCall table (args.map (·.text)) := by
  cases table <;> rfl

section

variable (d : Declaration)

theorem statements_staging? (index : Nat) (a : ScriptArg) :
    (d.staging? index a).toList.flatMap (·.statements) = d.argSetup index a := by
  unfold staging? argSetup isVector
  by_cases vector : canonical a.type = "vec3_t"
  · rw [if_pos (by simpa using vector), if_pos vector]
    rfl
  · rw [if_neg (by simpa using vector), if_neg vector]
    cases a.length <;> rfl

theorem cleanup_staging? (index : Nat) (a : ScriptArg) :
    (d.staging? index a).toList.flatMap (·.cleanup) = argRelease a := by
  unfold staging? argRelease isVector
  by_cases vector : canonical a.type = "vec3_t"
  · rw [if_pos (by simpa using vector), if_neg fun other => other.1 vector]
    rfl
  · rw [if_neg (by simpa using vector)]
    cases length : a.length with
    | none => simp
    | some l => simp [vector, Staging.cleanup, StagedArray.release, stagedArray]

theorem statements_memoryCheck? (index : Nat) (a : ScriptArg) :
    (memoryCheck? index a).toList.flatMap (·.statements d.name) = d.argWarning index a := by
  have same : (!isVector a.type && a.length.isNone && isPointerType a.type &&
      !isCharPointerType a.type && !isRecord a.type) = true ↔
        canonical a.type ≠ "vec3_t" ∧ a.length = none ∧ isPointerType a.type = true ∧
          isCharPointerType a.type = false ∧ isRecord a.type = false := by
    simp [isVector, and_assoc]
  unfold memoryCheck? argWarning
  by_cases memory : canonical a.type ≠ "vec3_t" ∧ a.length = none ∧ isPointerType a.type = true ∧
      isCharPointerType a.type = false ∧ isRecord a.type = false
  · rw [if_pos (same.mpr memory), if_pos memory]
    rfl
  · rw [if_neg fun holds => memory (same.mp holds), if_neg memory]
    rfl

theorem outcome_statements (call : String) :
    (d.outcome call).value.1.statements call = d.resultLines call := by
  unfold outcome resultLines
  split
  · cases d.traceResult? <;> rfl
  · by_cases text : canonical d.returnType = "char*" ∨ canonical d.returnType = "const char*"
    · rw [if_pos (by simpa [isText] using text), if_pos text]
      rfl
    · rw [if_neg (by simpa [isText] using text), if_neg text]
      simp only [Logged.value_bind]
      rfl

end

namespace DistinctNames

variable {d : Declaration} (distinct : d.DistinctNames)
include distinct

theorem callStaging_statements : d.callStaging.flatMap (·.statements) = d.setupLines := by
  rw [callStaging, distinct.callerArgs_eq, List.flatMap_append, flatMap_filterMap_mapIdx,
    setupLines]
  congr 1
  · cases d.traceResult? <;> rfl
  · simp only [d.statements_staging?]

theorem callStaging_cleanup :
    d.callStaging.flatMap (·.cleanup) = d.passedArgs.flatMap argRelease := by
  have result : (d.traceResult?.toList.map fun p => Staging.traceResult p.name).flatMap
      (·.cleanup) = [] := by
    cases d.traceResult? <;> rfl
  rw [callStaging, distinct.callerArgs_eq, List.flatMap_append, result, List.nil_append,
    flatMap_filterMap_of_same d.cleanup_staging?]

theorem callChecks_statements : d.callChecks.flatMap (·.statements d.name) =
    (d.passedArgs.mapIdx d.argWarning).flatten := by
  rw [callChecks, distinct.callerArgs_eq, flatMap_filterMap_mapIdx]
  simp only [d.statements_memoryCheck?]

/-- A generated body is written with the lines of its arguments. -/
theorem callBody_statements (table : Table) :
    "V8_STUFF();" :: (d.callBody table).value.1.statements d.name =
      d.callLines table ((d.callBody table).value.1.args.map (·.text)) := by
  have staging : (d.callBody table).value.1.staging = d.callStaging := rfl
  have checks : (d.callBody table).value.1.checks = d.callChecks := rfl
  have callee : (d.callBody table).value.1.callee = table.callee d.name := rfl
  have outcome : (d.callBody table).value.1.outcome =
      (d.outcome (callText (table.callee d.name) (d.callBody table).value.1.args)).value.1 := rfl
  rw [CallBody.statements, staging, checks, callee, outcome, d.outcome_statements, callText_eq,
    distinct.callStaging_statements, distinct.callStaging_cleanup, distinct.callChecks_statements]
  simp only [callLines, warningLines, List.isEmpty_iff, List.cons_append, List.append_assoc]

end DistinctNames

end Declaration

end ScriptGlue
