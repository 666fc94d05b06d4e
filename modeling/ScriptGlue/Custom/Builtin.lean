import ScriptGlue.Custom.Fragment

/-!
# Built-in fragments

Commands rebuilt from the command buffer, functions with a format string, registration of variables,
and functions that return a pair of vectors through their parameters.
-/
namespace ScriptGlue

namespace Custom

/-- Only the native call is written by hand. -/
def ofApiBody (body : String) : Custom := { apiBody := some body }

/-- The command of a client as the engine sends it. -/
def engineClientCommand : Custom where
  event := some {
    args := "edict_t* ed, const char *szFmt, ..."
    body := "\n".intercalate [
      "unsigned int v8_argCount = 2;",
      "v8::Local<v8::Value>* v8_args = new v8::Local<v8::Value>[2];",
      "v8_args[0] = structures::wrapEntity(isolate, ed);",
      "v8_args[1] = v8::String::NewFromUtf8(isolate, CMD_ARGS()).ToLocalChecked();"] }
  apiBody := some <|
    "(*g_engfuncs.pfnClientCommand)(structures::unwrapEntity(isolate, info[0]), " ++
      "utils::js2string(isolate, info[1]));"
  params := some [⟨"entity", "Entity", "edict_t *"⟩, ⟨"commandArgs", "string", "string"⟩]

/-- The command of a client as the game library gets it, with its full text. -/
def dllClientCommand : Custom where
  event := some {
    args := "edict_t* ed"
    body := "\n".intercalate [
      "unsigned int v8_argCount = 2;",
      "v8::Local<v8::Value>* v8_args = new v8::Local<v8::Value>[2];",
      "v8_args[0] = structures::wrapEntity(isolate, ed);",
      "",
      "if (CMD_ARGC() > 1) \x7b",
      "  char buf[100];",
      "  snprintf(buf, sizeof(buf), \"%s %s\", CMD_ARGV(0), CMD_ARGS());",
      "  v8_args[1] = v8::String::NewFromUtf8(isolate, buf).ToLocalChecked();",
      "\x7d else \x7b",
      "  v8_args[1] = v8::String::NewFromUtf8(isolate, CMD_ARGV(0)).ToLocalChecked();",
      "\x7d"] }
  params := some [⟨"client", "Entity", "edict_t *"⟩, ⟨"commandText", "string", "string"⟩]

/-- Messages have a fixed format. -/
def alertMessage : Custom := ofApiBody <|
  "(*g_engfuncs.pfnAlertMessage)((ALERT_TYPE)info[0]->Int32Value(context).ToChecked(), " ++
    "\"%s\", utils::js2string(isolate, info[1]));"

def engineFprintf : Custom := ofApiBody <|
  "fprintf((FILE*)utils::jsToPointer(isolate, info[0]), " ++
    "\"%s\", utils::js2string(isolate, info[1]));"

/-- A function that takes a variable with nothing else. -/
def registerVariable (function : String) : Custom :=
  ofApiBody s!"(*g_engfuncs.{function})((cvar_t*)structures::unwrapCvar(isolate, info[0]));"

def setVariable : Custom := ofApiBody <|
  "(*g_engfuncs.pfnCvar_DirectSet)((cvar_t*)structures::unwrapCvar(isolate, info[0]), " ++
    "utils::js2string(isolate, info[1]));"

/-- The place and the receiver of a message are optional. -/
def messageBegin : Custom where
  params := some [⟨"msg_dest", "number", "int"⟩, ⟨"msg_type", "number", "int"⟩,
    ⟨"pOrigin", "number[]", "const float *"⟩, ⟨"ed", "Entity | undefined", "edict_t *"⟩]

/-- A function that writes a place and angles through its last two parameters. -/
def vectorPair (function index : String) : Custom where
  apiBody := some <| "\n".intercalate [
    "float origin[3] = \x7b 0.0f, 0.0f, 0.0f \x7d;",
    "float angles[3] = \x7b 0.0f, 0.0f, 0.0f \x7d;",
    s!"(*g_engfuncs.{function})(structures::unwrapEntity(isolate, info[0]), " ++
      "info[1]->Int32Value(context).ToChecked(), origin, angles);",
    "v8::Local<v8::Object> result = v8::Object::New(isolate);",
    "result->Set(context, v8::String::NewFromUtf8(isolate, \"origin\").ToLocalChecked(), " ++
      "utils::floatArrayToJS(isolate, origin, 3)).Check();",
    "result->Set(context, v8::String::NewFromUtf8(isolate, \"angles\").ToLocalChecked(), " ++
      "utils::floatArrayToJS(isolate, angles, 3)).Check();",
    "info.GetReturnValue().Set(result);"]
  params := some [⟨"entity", "Entity", "const edict_t *"⟩, ⟨index, "number", "int"⟩]
  returns := some "\x7b origin: number[]; angles: number[] \x7d"

end Custom

def CustomRegistry.builtin : CustomRegistry :=
  [ (Table.engine, "pfnClientCommand", Custom.engineClientCommand),
    (Table.engine, "pfnAlertMessage", Custom.alertMessage),
    (Table.engine, "pfnEngineFprintf", Custom.engineFprintf),
    (Table.engine, "pfnCVarRegister", Custom.registerVariable "pfnCVarRegister"),
    (Table.engine, "pfnCvar_RegisterVariable", Custom.registerVariable "pfnCvar_RegisterVariable"),
    (Table.engine, "pfnCvar_DirectSet", Custom.setVariable),
    (Table.engine, "pfnMessageBegin", Custom.messageBegin),
    (Table.engine, "pfnGetAttachment", Custom.vectorPair "pfnGetAttachment" "iAttachment"),
    (Table.engine, "pfnGetBonePosition", Custom.vectorPair "pfnGetBonePosition" "iBone"),
    (Table.dll, "pfnClientCommand", Custom.dllClientCommand)].foldl
      (fun r (table, name, custom) => r.insert table name custom) CustomRegistry.empty

end ScriptGlue
