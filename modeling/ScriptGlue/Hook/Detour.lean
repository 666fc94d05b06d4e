import ScriptGlue.Code.Native
import ScriptGlue.Hook.ParamName

/-!
# Detours

A detour takes the place of a hooked function: it runs the listeners that come first, calls that
function unless they supersede it, runs the listeners that come after, and picks the result. The
file of detours also holds a table that finds the detour of a hook by its number.
-/
namespace ScriptGlue.Hook

open Code

def detourSymbol (key : String) : String := s!"Hook_{key}"

/-- Detours are indented by four spaces. -/
def detourUnit : String := "    "

namespace ReturnShape

def pushMacro : ReturnShape → String
  | int => "PUSH_INT()"
  | float => "PUSH_FLOAT()"
  | entity => "PUSH_CBASE()"
  | string => "PUSH_STRING()"
  | vector => "PUSH_VECTOR()"
  | void | unknown _ => "PUSH_VOID()"

end ReturnShape

namespace Signature

/-- Vectors are returned through a parameter. -/
def returnsVector (s : Signature) : Bool := s.returns == .vector

/-- The parameters of the detour after those that every detour has. -/
def paramDecls (s : Signature) : List String :=
  s.namedParams.map fun p => s!", {p.shape.nativeType} {p.name}"

/-- The types that the hooked function takes after those that every hook has. -/
def callTypes (s : Signature) : List String := s.namedParams.map (·.shape.nativeType)

/-- The arguments that the hooked function is called with after those that every hook has. -/
def callArgs (s : Signature) : List String := s.namedParams.map (·.name)

def extraArgs (s : Signature) : List String :=
  s.namedParams.map fun p => p.shape.scriptValue p.name

end Signature

def lockLines : Layout :=
  [.line "v8::Locker locker(isolate);", .line "v8::Isolate::Scope isolateScope(isolate);",
    .line "v8::HandleScope handleScope(isolate);"]

def withIsolate (body : Layout) : Layout :=
  Layout.scope <|
    .line "v8::Isolate* isolate = mgr.getIsolate();" ::
      Layout.block "if (isolate)" (lockLines ++ body) "\x7d"

/-- Runs the listeners before or after the hooked function. -/
def listenerChain (s : Signature) (before : Bool) : Layout :=
  let flag := if before then "true" else "false"
  if s.params.isEmpty then [.line s!"executeCallbacks(hook, pthis, {flag});"]
  else
    let side := if before then "pre" else "post"
    let args : ListDef :=
      ⟨s!"v8::Local<v8::Value> extraArgs[{s.params.length}]", s.extraArgs.map fun a => ⟨a, none⟩⟩
    .line s!"// Execute {side}-callbacks with parameters" ::
      withIsolate (Layout.blank :: args.layout ++
        [.line s!"executeCallbacksWithArgs(hook, pthis, {flag}, isolate, extraArgs);"])

/-- Calls the hooked function with its object and result parameters in front. -/
def hookedCall (returns : String) (leadTypes leadArgs : List String) (s : Signature) : Layout :=
  let types := ", ".intercalate (leadTypes ++ s.callTypes)
  let args := ", ".intercalate (leadArgs ++ s.callArgs)
  let call := s!"orig({args});"
  [.line s!"typedef {returns} (*OrigFunc)({types});",
    .line "OrigFunc orig = reinterpret_cast<OrigFunc>(hook->getOriginalFunction());",
    .line (if returns = "void" then call else s!"origret = {call}")]

def perPlatform (windows others : Layout) : Layout :=
  .line "#ifdef _WIN32" :: windows ++ .line "#else" :: others ++ [.line "#endif"]

/-- Statements that read the result a listener has set. -/
def withOverride (body : Layout) : Layout :=
  withIsolate (.line "v8::Local<v8::Value> retVal = mgr.getReturnValue(isolate);" :: body)

/-- Returns the result of the hooked function unless a listener overrides it. -/
def unlessOverridden (body : List String) : Layout :=
  Layout.block "if (mgr.getCurrentResult() < HAM_OVERRIDE)" (body.map .line) "\x7d"

def returnTail : ReturnShape → Layout
  | .int => [.line "CHECK_RETURN_INT()"]
  | .float => [.line "CHECK_RETURN_FLOAT()"]
  | .entity =>
    unlessOverridden ["return origret;"] ++ [.line "ret = origret;"] ++
      withOverride (Layout.block "if (!retVal.IsEmpty() && retVal->IsObject())"
        (.line "edict_t* ed = (edict_t*)structures::unwrapEntity(isolate, retVal);" ::
          Layout.block "if (ed && ed->pvPrivateData)" [.line "ret = ed->pvPrivateData;"] "\x7d")
        "\x7d") ++
      [.line "return ret;"]
  | .string =>
    unlessOverridden ["return origret;"] ++ [.line "ret = origret;"] ++
      withOverride (Layout.block "if (!retVal.IsEmpty() && retVal->IsString())"
        [.line "v8::String::Utf8Value str(isolate, retVal);",
          .line "snprintf(retBuffer, sizeof(retBuffer), \"%s\", *str ? *str : \"\");",
          .line "ret = retBuffer;"]
        "\x7d") ++
      [.line "return ret;"]
  | .vector =>
    unlessOverridden ["memcpy(out, origVec, sizeof(float) * 3);", "return;"] ++
      [.line "memcpy(retVec, origVec, sizeof(float) * 3);"] ++
      withOverride (Layout.block "if (!retVal.IsEmpty() && retVal->IsArray())"
        [.line "utils::js2vect(isolate, v8::Local<v8::Array>::Cast(retVal), retVec);"] "\x7d") ++
      [.line "memcpy(out, retVec, sizeof(float) * 3);"]
  | .void | .unknown _ => []

/-- The head of a detour, up to and including its opening brace. -/
def detourHead (s : Signature) : Layout :=
  let symbol := detourSymbol s.key
  let params := String.join s.paramDecls
  if s.returnsVector then
    perPlatform
      [.line (s!"void {symbol}(Hook* hook, void* pthis, float* out{params})" ++ " \x7b")]
      [.line (s!"void {symbol}(Hook* hook, float* out, void* pthis{params})" ++ " \x7b")] ++
      [.enter]
  else Layout.opening s!"{s.returns.nativeType} {symbol}(Hook* hook, void* pthis{params})"

/-- The call of the hooked function, in the argument order of each platform. -/
def detourCall (s : Signature) : Layout :=
  if s.returnsVector then
    perPlatform (hookedCall "void" ["void*", "float*"] ["pthis", "origVec"] s)
      (hookedCall "void" ["float*", "void*"] ["origVec", "pthis"] s)
  else hookedCall s.returns.nativeType ["void*"] ["pthis"] s

def detourLayout (s : Signature) : Layout :=
  detourHead s ++
    [.line s.returns.pushMacro, Layout.blank] ++
    listenerChain s true ++ [Layout.blank] ++
    Layout.block "if (mgr.getCurrentResult() < HAM_SUPERCEDE)" (detourCall s) "\x7d" ++
    [Layout.blank] ++
    listenerChain s false ++ [.line "POP()"] ++
    returnTail s.returns ++ Layout.closing "\x7d"

def detourCode (s : Signature) : String := (detourLayout s).renderAt detourUnit 0

end ScriptGlue.Hook
