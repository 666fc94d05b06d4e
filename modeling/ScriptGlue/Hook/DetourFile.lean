import ScriptGlue.Hook.Detour

/-!
# The file of detours

One detour for every hook with a signature, the macros that they share, and the table of detours in
the order of the enumeration.
-/
namespace ScriptGlue.Hook

open Code

def detourIncludes : List String :=
  ["hook.h", "ham_manager.h", "ham_callback_helpers.h", "../structures/structures.hpp",
    "../node/utils.hpp", "extdll.h", "<v8.h>", "<cstring>", "<cstdio>"]

def macroLines (name : String) (body : List String) : List String :=
  match body.getLast? with
  | none => [s!"#define {name}"]
  | some last =>
    (s!"#define {name}" :: body.dropLast.map ("    " ++ ·)).map (· ++ " \\") ++ ["    " ++ last]

/-- A macro that sets up a result with the given variables. -/
def pushMacroLines (name : String) (locals : List String) : List String :=
  macroLines name <|
    ["HamManager& mgr = HamManager::instance();", "mgr.setCurrentResult(HAM_UNSET);"] ++
      locals ++ ["hook->setExecuting(true);"]

/-- A macro that returns a number: the one of the hooked function, or the one that a listener has
set, read from `retVal` by an expression. -/
def checkMacroLines (name conversion : String) : List String :=
  macroLines name
    ["if (mgr.getCurrentResult() < HAM_OVERRIDE) \x7b",
      "    return origret;",
      "\x7d",
      "\x7b",
      "    v8::Isolate* isolate = mgr.getIsolate();",
      "    if (isolate) \x7b",
      "        v8::Locker locker(isolate);",
      "        v8::Isolate::Scope isolateScope(isolate);",
      "        v8::HandleScope handleScope(isolate);",
      "        v8::Local<v8::Value> retVal = mgr.getReturnValue(isolate);",
      "        v8::Local<v8::Context> ctx = isolate->GetCurrentContext();",
      "        if (!retVal.IsEmpty() && retVal->IsNumber()) \x7b",
      "            ret = " ++ conversion ++ ";",
      "        \x7d else \x7b",
      "            ret = origret;",
      "        \x7d",
      "    \x7d else \x7b",
      "        ret = origret;",
      "    \x7d",
      "\x7d",
      "return ret;"]

def sharedMacros : List (List String) :=
  [pushMacroLines "PUSH_VOID()" [],
    pushMacroLines "PUSH_INT()" ["int ret = 0;", "int origret = 0;"],
    pushMacroLines "PUSH_FLOAT()" ["float ret = 0.0f;", "float origret = 0.0f;"],
    pushMacroLines "PUSH_CBASE()" ["void* ret = nullptr;", "void* origret = nullptr;"],
    pushMacroLines "PUSH_STRING()"
      ["static char retBuffer[256];", "const char* ret = \"\";", "const char* origret = \"\";"],
    pushMacroLines "PUSH_VECTOR()"
      ["float retVec[3] = \x7b0, 0, 0\x7d;", "float origVec[3] = \x7b0, 0, 0\x7d;"],
    macroLines "POP()" ["hook->setExecuting(false);"],
    checkMacroLines "CHECK_RETURN_INT()" "retVal->Int32Value(ctx).FromMaybe(origret)",
    checkMacroLines "CHECK_RETURN_FLOAT()"
      "static_cast<float>(retVal->NumberValue(ctx).FromMaybe(origret))"]

def Entry.detourItem (e : Entry) : ListedItem :=
  match e.signature with
  | some s =>
    ⟨s!"reinterpret_cast<void*>({detourSymbol s.key})", some s!"{e.id} {e.name}"⟩
  | none => ⟨"nullptr", some s!"{e.id} {e.name} (no signature)"⟩

namespace Catalogue

def detourTable (c : Catalogue) : ListDef :=
  ⟨"void* g_hamCallbacks[]", c.entries.map (·.detourItem)⟩

/-- The signatures that detours are made for, in the order of the hooks. -/
def detours (c : Catalogue) : List Signature := c.entries.filterMap (·.signature)

def detourFileLayout (c : Catalogue) : Layout :=
  includes detourIncludes ++
    [Layout.blank, .line "extern enginefuncs_t g_engfuncs;", Layout.blank,
      .line "using namespace Ham;", Layout.blank] ++
    [Layout.blank].intercalate (sharedMacros.map (·.map .line)) ++ [Layout.blank] ++
    c.detours.flatMap (fun s => Layout.ofText (detourCode s) ++ [Layout.blank]) ++
    .line s!"const size_t g_hamCallbackCount = {c.entries.length};" :: c.detourTable.layout

def detourFile (c : Catalogue) : String := c.detourFileLayout.renderAt detourUnit 0

end Catalogue

end ScriptGlue.Hook
