/-!
# Value shapes of hooks

The codes by which a hook states what it takes and what it returns, and the script and native types
that each of them stands for.
-/
namespace ScriptGlue.Hook

/-- The shape of a parameter. -/
inductive ParamShape where
  | int
  | float
  | vector
  | entity
  | entvars
  | string
  | trace
  | edict
  | itemInfo
  /-- A code that stands for no known shape. -/
  | unknown (code : String)
  deriving DecidableEq, Repr

/-- The shape of a result. -/
inductive ReturnShape where
  | void
  | int
  | float
  | vector
  | entity
  | string
  /-- A code that stands for no known shape. -/
  | unknown (code : String)
  deriving DecidableEq, Repr

namespace ParamShape

def ofCode : String → ParamShape
  | "HAM_PARAM_INT" => int
  | "HAM_PARAM_FLOAT" => float
  | "HAM_PARAM_VECTOR" => vector
  | "HAM_PARAM_ENTITY" => entity
  | "HAM_PARAM_ENTVAR" => entvars
  | "HAM_PARAM_STRING" => string
  | "HAM_PARAM_TRACE" => trace
  | "HAM_PARAM_EDICT" => edict
  | "HAM_PARAM_ITEMINFO" => itemInfo
  | code => unknown code

def scriptType : ParamShape → String
  | int | float => "number"
  | vector => "number[]"
  | entity | edict => "Entity"
  | entvars => "Entvars"
  | string => "string"
  | trace => "TraceResult"
  | itemInfo => "ItemInfo"
  | unknown _ => "any"

def nativeType : ParamShape → String
  | int => "int"
  | float => "float"
  | vector => "float*"
  | string => "const char*"
  | entity | entvars | trace | edict | itemInfo | unknown _ => "void*"

/-- The name of a parameter that has no better one. -/
def defaultName? : ParamShape → Option String
  | int | float => some "value"
  | vector => some "vec"
  | entity | entvars | edict => some "other"
  | string => some "str"
  | trace => some "trace"
  | itemInfo => some "itemInfo"
  | unknown _ => none

def nullValue : String := "v8::Null(isolate).As<v8::Value>()"

/-- The script value of the native parameter `n`. -/
def scriptValue (shape : ParamShape) (n : String) : String :=
  match shape with
  | int => s!"v8::Integer::New(isolate, {n})"
  | float => s!"v8::Number::New(isolate, {n})"
  | vector => s!"utils::vect2js(isolate, {n})"
  | string =>
    s!"{n} ? v8::String::NewFromUtf8(isolate, {n}).ToLocalChecked().As<v8::Value>() : {nullValue}"
  | entity =>
    s!"getEdictFromThis({n}) ? structures::wrapEntity(isolate, getEdictFromThis({n})) : {nullValue}"
  | entvars =>
    s!"{n} ? structures::wrapEntvars(isolate, static_cast<entvars_t*>({n})) : {nullValue}"
  | edict => s!"{n} ? structures::wrapEntity(isolate, static_cast<edict_t*>({n})) : {nullValue}"
  | trace =>
    s!"{n} ? structures::wrapTraceResult(isolate, static_cast<TraceResult*>({n})) : {nullValue}"
  | itemInfo | unknown _ => nullValue

end ParamShape

namespace ReturnShape

def ofCode : String → ReturnShape
  | "HAM_RET_VOID" => void
  | "HAM_RET_INT" => int
  | "HAM_RET_FLOAT" => float
  | "HAM_RET_VECTOR" => vector
  | "HAM_RET_ENTITY" => entity
  | "HAM_RET_STRING" => string
  | code => unknown code

def scriptType : ReturnShape → String
  | void => "void"
  | int | float => "number"
  | vector => "number[]"
  | entity => "Entity"
  | string => "string"
  | unknown _ => "any"

/-- The native result type; vectors are written through a pointer instead. -/
def nativeType : ReturnShape → String
  | void | vector | unknown _ => "void"
  | int => "int"
  | float => "float"
  | entity => "void*"
  | string => "const char*"

end ReturnShape

end ScriptGlue.Hook
