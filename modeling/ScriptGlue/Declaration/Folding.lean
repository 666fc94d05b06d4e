import ScriptGlue.Declaration.Basic

/-!
# Arguments as scripts see them

An array and the argument with its length, which follows it, become one argument. Names that scripts
reserve are replaced.
-/
namespace ScriptGlue

/-- Names that are reserved in scripts, and what takes their place. -/
def reservedNames : List (String × String) :=
  [("var", "variable"), ("function", "callback"), ("class", "className")]

def scriptSafeName (name : String) : String := (reservedNames.lookup name).getD name

structure ScriptArg where
  param : Parameter
  scriptName : String
  /-- The argument that holds the length, which scripts do not pass. -/
  length : Option String := none
  deriving DecidableEq, Repr

namespace ScriptArg

def name (a : ScriptArg) : String := a.param.name

def type (a : ScriptArg) : String := a.param.type

def single (p : Parameter) : ScriptArg := { param := p, scriptName := scriptSafeName p.name }

def array (p : Parameter) (length : String) : ScriptArg := { single p with length := some length }

end ScriptArg

/-- Whether the name of a parameter tells that it holds a length. -/
def namesLength (name : String) : Bool := Text.contains (Text.lower name) "length"

/-- Whether a parameter is an array whose length the next one holds. -/
def foldsWith (p next : Parameter) : Bool :=
  isPointerType p.type && !isCharPointerType p.type && namesLength next.name

/-- Folds each array with its length, from the left. -/
def foldArgs : List Parameter → List ScriptArg
  | [] => []
  | [p] => [.single p]
  | p :: next :: r =>
    if foldsWith p next then .array p next.name :: foldArgs r
    else .single p :: foldArgs (next :: r)

namespace Declaration

/-- The arguments that scripts see, without those that only hold lengths. -/
def scriptArgs (d : Declaration) : List ScriptArg := foldArgs d.fixed

/-- Whether some array takes its length from the argument of this name. -/
def isLengthName (d : Declaration) (name : String) : Bool :=
  d.scriptArgs.any (·.length == some name)

end Declaration

end ScriptGlue
