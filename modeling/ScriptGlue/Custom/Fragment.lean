import ScriptGlue.Code.Typing
import ScriptGlue.Table.Basic

/-!
# Custom fragments

Code and types written by hand for functions that generated ones would not fit. Each fragment
replaces one thing only.
-/
namespace ScriptGlue

structure EventFragment where
  /-- The native parameter list. -/
  args : String
  /-- Statements that set up `v8_argCount` and `v8_args`. -/
  body : String
  deriving DecidableEq, Repr

structure Custom where
  event : Option EventFragment := none
  /-- Statements in place of the native call. -/
  apiBody : Option String := none
  params : Option (List Code.TypedParam) := none
  returns : Option String := none
  deriving DecidableEq, Repr

abbrev CustomProvider := Table → String → Option Custom

def CustomProvider.none : CustomProvider := fun _ _ => .none

/-- Fragments by table and function, each function once. -/
structure CustomRegistry where
  entries : List ((Table × String) × Custom)
  deriving DecidableEq, Repr

namespace CustomRegistry

def empty : CustomRegistry := ⟨[]⟩

def size (r : CustomRegistry) : Nat := r.entries.length

def find? (r : CustomRegistry) : CustomProvider := fun table name => r.entries.lookup (table, name)

/-- Sets all fragments of a function; those it had before are gone. -/
def insert (r : CustomRegistry) (table : Table) (name : String) (c : Custom) : CustomRegistry :=
  ⟨((table, name), c) :: r.entries.filter (·.1 ≠ (table, name))⟩

end CustomRegistry

end ScriptGlue
