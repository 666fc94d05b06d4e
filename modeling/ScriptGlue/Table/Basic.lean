/-!
# Tables

The two function tables through which engine and game library call each other, and the names that
generated code uses for each of them.
-/
namespace ScriptGlue

inductive Table where
  /-- Functions of the game library. -/
  | dll
  /-- Functions of the engine. -/
  | engine
  deriving DecidableEq, Repr

/-- Whether listeners run before or after the function itself. -/
inductive Phase where
  | base
  | post
  deriving DecidableEq, Repr

namespace Table

/-- All tables, in the order in which they are generated. -/
def all : List Table := [dll, engine]

/-- The short name, which scripts see as well. -/
def key : Table → String
  | dll => "dll"
  | engine => "eng"

def eventStem : Table → Phase → String
  | dll, .base => "dll"
  | dll, .post => "postDll"
  | engine, .base => "eng"
  | engine, .post => "postEng"

def structName : Table → String
  | dll => "DLL_FUNCTIONS"
  | engine => "enginefuncs_t"

def dispatchSymbol : Table → Phase → String
  | dll, .base => "g_DllFunctionTable"
  | dll, .post => "g_DllFunctionTable_Post"
  | engine, .base => "g_EngineFunctionsTable"
  | engine, .post => "g_EngineFunctionsTable_Post"

def callee (t : Table) (function : String) : String :=
  match t with
  | dll => s!"(*gpGamedllFuncs->dllapi_table->{function})"
  | engine => s!"(*g_engfuncs.{function})"

def globalDeclaration : Table → String
  | dll => "extern gamedll_funcs_t *gpGamedllFuncs;"
  | engine => "extern enginefuncs_t g_engfuncs;"

def interfaceName : Table → String
  | dll => "DLL"
  | engine => "Engine"

def eventRegistrar : Table → String
  | dll => "registerDllEvents"
  | engine => "registerEngineEvents"

def functionRegistrar : Table → String
  | dll => "registerDllFunctions"
  | engine => "registerEngineFunctions"

/-- The array that lists the functions scripts may call. -/
def installerSymbol : Table → String
  | dll => "gamedllSpecificFunctions"
  | engine => "engineSpecificFunctions"

def eventsFile : Table → String
  | dll => "dll_events.cpp"
  | engine => "engine_events.cpp"

def functionsFile : Table → String
  | dll => "dll_functions.cpp"
  | engine => "engine_functions.cpp"

def typingsFile : Table → String
  | dll => "dll.d.ts"
  | engine => "engine.d.ts"

end Table

end ScriptGlue
