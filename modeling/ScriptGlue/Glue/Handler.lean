import ScriptGlue.Code.Native
import ScriptGlue.Glue.Basic

/-!
# Event handlers

A handler is called in place of a function of a table, before or after it. It raises the event with
the arguments as script values and lets listeners decide on the result.
-/
namespace ScriptGlue

open Code Mapping

structure EventValue where
  expr : String
  name : String
  type : String
  deriving DecidableEq, Repr

inductive Dispatch where
  /-- Statements written by hand set up the values. -/
  | custom (body : List String)
  /-- There are no values. -/
  | bare
  | values (values : List EventValue)
  deriving DecidableEq, Repr

/-- The handler of one function in one phase. -/
structure Handler where
  symbol : String
  event : String
  returns : String
  /-- The native parameter list. -/
  params : String
  /-- The names of the arguments that listeners get. -/
  listenerArgs : List String
  /-- Lets the script engine run. -/
  ticks : Bool
  dispatch : Dispatch
  flags : List Flag
  deriving DecidableEq, Repr

inductive EventSlot where
  /-- The function could not be read; the handler would have had this name. -/
  | empty (symbol : String)
  | handler (h : Handler)
  deriving DecidableEq, Repr

namespace Dispatch

def returnValues : List String :=
  ["  return std::pair<unsigned int, v8::Local<v8::Value>*>(v8_argCount, v8_args);", "\x7d);"]

def raiseWith (event : String) : String :=
  s!"event::findAndCall(\"{event}\", [=](v8::Isolate* isolate) \x7b"

def valueLine (index : Nat) (v : EventValue) : String :=
  s!"  v8_args[{index}] = {v.expr}; // {v.name} ({v.type})"

def statements (event : String) : Dispatch → List String
  | custom body =>
    raiseWith event :: body.map (fun l => if l.isEmpty then "" else s!"  {l}") ++ returnValues
  | bare => [s!"event::findAndCall(\"{event}\", nullptr, 0);"]
  | values vs =>
    let count := vs.length
    raiseWith event :: s!"  unsigned int v8_argCount = {count};" ::
      s!"  v8::Local<v8::Value>* v8_args = new v8::Local<v8::Value>[{count}];" ::
      vs.mapIdx valueLine ++ returnValues

end Dispatch

/-- The value that a handler returns when no listener has set one. -/
def zeroValue (type : String) : String :=
  let spelling := canonical type
  if isPointerType spelling then "nullptr"
  else if spelling = "float" then "0.0f"
  else if spelling = "double" then "0.0"
  else "0"

namespace Handler

def returnStatements (type : String) : List String :=
  if type = "void" then []
  else
    let spelling := canonical type
    ["", "META_RES result = event::lastResult();",
      "if (result == MRES_OVERRIDE || result == MRES_SUPERCEDE) \x7b",
      s!"  RETURN_META_VALUE(result, event::lastReturnValue<{spelling}>());",
      "\x7d",
      s!"return {zeroValue type};"]

def statements (h : Handler) : List String :=
  "SET_META_RESULT(MRES_IGNORED);" :: (if h.ticks then ["nodeImpl.Tick();"] else []) ++
    h.dispatch.statements h.event ++ returnStatements h.returns

def usage (h : Handler) (scriptNamespace : String) : String :=
  let args := ", ".intercalate h.listenerArgs
  s!"{scriptNamespace}.on('{h.event}', ({args}) => console.log('{h.event} fired!'));"

def definition (h : Handler) (scriptNamespace : String) : FunctionDef where
  comments := [h.usage scriptNamespace]
  signature := s!"{h.returns} {h.symbol}({h.params})"
  body := h.statements.flatMap bodyLines

end Handler

namespace EventSlot

def entry : EventSlot → String
  | empty _ => "NULL"
  | handler h => h.symbol

def handler? : EventSlot → Option Handler
  | empty _ => none
  | handler h => some h

def flags : EventSlot → List Flag
  | empty _ => []
  | handler h => h.flags

def code (scriptNamespace : String) : EventSlot → String
  | empty symbol => s!"// NULL {symbol}"
  | handler h => (h.definition scriptNamespace).source

end EventSlot

def externalLead : String := "v8::External::New(isolate, "

/-- The length of an array as far as it is known: that of another argument, or a declared one. -/
def ScriptArg.knownLength (a : ScriptArg) : Option String :=
  match a.length with
  | some length => some length
  | none => a.param.size.map toString

/-- An argument as a script value. Untyped memory must not be constant, so a constant is cast. -/
def ScriptArg.eventValue (a : ScriptArg) : Logged (EventValue × List Flag) := do
  let plain ← toScript a.type a.name a.knownLength
  let conversion ←
    if isConstType a.type && !plain.isUnknown && Text.startsWith plain.expr externalLead then
      toScript a.type s!"(void*){a.name}" a.knownLength
    else pure plain
  let flags ← conversion.note a.name a.type
  return (⟨conversion.expr, a.name, a.type⟩, flags)

namespace Declaration

/-- The parameter list of a handler, with the mark for any further arguments. -/
def handlerParams (d : Declaration) : String :=
  ", ".intercalate <| d.args.map fun
    | .fixed p => declarator p.type p.name
    | .variadic => Argument.variadicType

def dispatch (d : Declaration) (event : Option EventFragment) : Logged (Dispatch × List Flag) :=
  match event with
  | some fragment => pure (.custom (Text.lines fragment.body), [])
  | none =>
    if d.scriptArgs.isEmpty then pure (.bare, [])
    else do
      let values ← Logged.forEach (·.eventValue) d.scriptArgs
      return (.values (values.map (·.1)), values.flatMap (·.2))

def eventSlot (g : GlueSettings) (table : Table) (phase : Phase) (d : Declaration) :
    Logged EventSlot := do
  let symbol := d.eventSymbol table phase
  let custom := g.custom table d.name
  let event := custom.bind (·.event)
  if d.isUnparsable && event.isNone then return .empty symbol
  else
    let (dispatch, flags) ← d.dispatch event
    return .handler {
      symbol := symbol
      event := d.eventName table phase
      returns := if d.isUnparsable then "void" else d.returnType
      params := (event.map (·.args)).getD d.handlerParams
      listenerArgs :=
        match custom.bind (·.params) with
        | some params => params.map (·.name)
        | none => d.scriptArgs.map (·.scriptName)
      ticks := phase = .base ∧ d.name = g.frameTick
      dispatch := dispatch
      flags := flags }

end Declaration

end ScriptGlue
