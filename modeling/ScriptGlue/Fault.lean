import ScriptGlue.Source.Span

/-!
# Faults

What can go wrong while reading inputs, by cause, with its wording.
-/
namespace ScriptGlue

inductive Fault where
  /-- A reader met one token where it needed another. -/
  | unexpectedToken (expected got : String) (span : Span)
  /-- A declaration has no meaning as a whole. -/
  | malformedDeclaration (reason : String) (span : Span)
  | missingTable (name : String)
  | missingEnum (name : String)
  | missingArray (name : String)
  /-- The hook enumeration and the signature array disagree. -/
  | catalogueMismatch (detail : String)
  /-- The file system refused an operation. -/
  | io (detail : String)
  /-- The settings make no sense. -/
  | config (detail : String)
  /-- The running value of an enumeration left the sixty-three bits it may use. -/
  | counterOverflow
  deriving DecidableEq, Repr

namespace Fault

def message : Fault → String
  | unexpectedToken expected got _ => s!"Unexpected token: expected {expected}, got {got}"
  | malformedDeclaration reason _ => s!"Malformed declaration: {reason}"
  | missingTable name => s!"Table `{name}` not found in header"
  | missingEnum name => s!"Enum `{name}` not found"
  | missingArray name => s!"Array `{name}` not found"
  | catalogueMismatch detail => s!"Ham catalogue mismatch: {detail}"
  | io detail => s!"IO error: {detail}"
  | config detail => s!"Config error: {detail}"
  | counterOverflow => "attempt to add with overflow"

/-- Where the fault lies, if it lies in one place of a source. -/
def span? : Fault → Option Span
  | unexpectedToken _ _ span | malformedDeclaration _ span => some span
  | _ => none

end Fault

end ScriptGlue
