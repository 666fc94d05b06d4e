import ScriptGlue.Custom.Fragment
import ScriptGlue.Declaration.Folding
import ScriptGlue.Mapping.Conversion

/-!
# Glue

For each declared function there are a handler that raises script events, a binding that lets
scripts call it, and types for both. This module holds what they share: names, flags and settings.
-/
namespace ScriptGlue

/-- What generated code relies on and a person should look at. -/
inductive Flag where
  /-- A type without a mapping. -/
  | unknownType (arg type : String)
  /-- A number of elements that was taken for lack of a known one. -/
  | assumedLength (arg : String) (length : Nat)
  deriving DecidableEq, Repr

namespace Flag

def message : Flag → String
  | unknownType arg type => s!"unknown type {type} ({arg})"
  | assumedLength arg length => s!"assumed length {length} for {arg}"

def isUnknownType : Flag → Bool
  | unknownType _ _ => true
  | assumedLength _ _ => false

end Flag

def Mapping.Conversion.flags (c : Mapping.Conversion) (arg type : String) : List Flag :=
  (if c.isUnknown then [.unknownType arg type] else []) ++
    c.assumedLength.toList.map (.assumedLength arg)

def Mapping.Conversion.note (c : Mapping.Conversion) (arg type : String) : Logged (List Flag) := do
  match c.assumedLength with
  | some n => Logged.warn s!"assuming {n} element(s) for `{arg}` ({type})"
  | none => pure ()
  return c.flags arg type

/-- The game library function that is called once a frame, unless the settings name another. -/
def defaultFrameTick : String := "pfnStartFrame"

structure GlueSettings where
  custom : CustomProvider
  /-- The function whose handler lets the script engine run. -/
  frameTick : String := defaultFrameTick
  /-- The namespace that scripts find everything in. -/
  scriptNamespace : String := "nodemod"

namespace Declaration

def eventName (d : Declaration) (table : Table) (phase : Phase) : String :=
  Text.camelCase (table.eventStem phase ++ d.bareName)

def eventSymbol (d : Declaration) (table : Table) (phase : Phase) : String :=
  s!"{table.eventStem phase}_{d.name}"

def apiSymbol (d : Declaration) (table : Table) : String := s!"sf_{table.key}_{d.name}"

/-- A pointer to a trace result in a function without a result is where the function writes it. -/
def traceResult? (d : Declaration) : Option Parameter :=
  if d.returnsVoid then
    d.fixed.find? fun p => Mapping.canonical p.type == "TraceResult*" && !isConstType p.type
  else none

/-- The arguments that scripts pass when they call the function. -/
def callerArgs (d : Declaration) : List ScriptArg :=
  match d.traceResult? with
  | some out => d.scriptArgs.filter (·.name ≠ out.name)
  | none => d.scriptArgs

end Declaration

end ScriptGlue
