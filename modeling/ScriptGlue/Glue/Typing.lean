import ScriptGlue.Glue.Basic

/-!
# Types of glue

The signatures under which scripts call a function and listen to its events.
-/
namespace ScriptGlue

open Code Mapping

def ScriptArg.typed (a : ScriptArg) : TypedParam := ⟨a.scriptName, declaredType a.type, a.type⟩

namespace Declaration

def apiTyping (g : GlueSettings) (table : Table) (d : Declaration) : TypedSignature :=
  let custom := g.custom table d.name
  let params := custom.bind (·.params)
  { name := d.scriptName
    params := params.getD (d.callerArgs.map (·.typed))
    rest := params.isNone && d.isVariadic
    returns :=
      match custom.bind (·.returns) with
      | some type => type
      | none => if d.traceResult?.isSome then "TraceResult" else declaredType d.returnType
    doc := some (Text.trim d.text) }

/-- The signature of a listener, if the function has a handler. -/
def eventTyping? (g : GlueSettings) (table : Table) (phase : Phase) (d : Declaration) :
    Option TypedSignature :=
  let custom := g.custom table d.name
  let params := custom.bind (·.params)
  if d.isUnparsable && (custom.bind (·.event)).isNone then none
  else some {
    name := d.eventName table phase
    params := params.getD (d.scriptArgs.map (·.typed))
    rest := params.isNone && d.isVariadic
    returns := "void" }

end Declaration

end ScriptGlue
