import ScriptGlue.Hook.Shape

/-!
# The hook catalogue

Hooks are numbered by an enumeration and described by an array of signatures. The two are joined:
the hook with number `n` has the signature in row `n`.
-/
namespace ScriptGlue.Hook

structure Enumerator where
  /-- The name without the part that all names of the enumeration share. -/
  name : String
  value : Int
  line : Nat
  deriving DecidableEq, Repr

structure Signature where
  key : String
  returns : ReturnShape
  /-- How many parameters the row says it has. -/
  declaredCount : Nat
  params : List ParamShape
  line : Nat
  deriving DecidableEq, Repr

/-- A hook that scripts can install. -/
structure Entry where
  name : String
  id : Nat
  /-- The row with this number, if there is one. -/
  signature : Option Signature
  deriving DecidableEq, Repr

/-- All hooks. -/
structure Catalogue where
  /-- In the order of the enumeration. -/
  entries : List Entry
  /-- All rows, also those that no hook has. -/
  signatures : List Signature
  /-- The values by which a listener steers the call it hooks. -/
  results : List Enumerator
  deriving DecidableEq, Repr

/-- The number of the hook that an enumeration gives a value. A negative value numbers no row. -/
def idOf (value : Int) : Nat := if 0 ≤ value then value.toNat else 0xFFFFFFFFFFFFFFFF

namespace Catalogue

def join (hooks : List Enumerator) (rows : List Signature) (results : List Enumerator) :
    Catalogue where
  entries := hooks.map fun h => ⟨h.name, idOf h.value, rows[idOf h.value]?⟩
  signatures := rows
  results := results

/-- No hooks at all. -/
def empty : Catalogue := ⟨[], [], []⟩

end Catalogue

def defaultResults : List Enumerator :=
  ["UNSET", "IGNORED", "HANDLED", "OVERRIDE", "SUPERCEDE"].mapIdx fun i name => ⟨name, i, 0⟩

end ScriptGlue.Hook
