import ScriptGlue.Text.CamelCase
import ScriptGlue.Text.Search
import ScriptGlue.Text.Blank

/-!
# Declarations

The function pointers of an engine table as they are declared: a return type, a name and a list of
arguments whose types are kept as spelled.
-/
namespace ScriptGlue

structure Parameter where
  name : String
  type : String
  /-- The length of an array declarator. -/
  size : Option Nat := none
  deriving DecidableEq, Repr

/-- A typed argument, or the mark for any further ones. -/
inductive Argument where
  | fixed (p : Parameter)
  | variadic
  deriving DecidableEq, Repr

namespace Argument

/-- The name of the argument that stands for any further ones. -/
def variadicName : String := "args"

/-- The type of the argument that stands for any further ones. -/
def variadicType : String := "..."

def name : Argument → String
  | fixed p => p.name
  | variadic => variadicName

def type : Argument → String
  | fixed p => p.type
  | variadic => variadicType

def size : Argument → Option Nat
  | fixed p => p.size
  | variadic => none

def isVariadic : Argument → Bool
  | fixed _ => false
  | variadic => true

def fixed? : Argument → Option Parameter
  | fixed p => some p
  | variadic => none

end Argument

/-- Whether a type has a star. -/
def isPointerType (type : String) : Bool := type.toList.contains '*'

/-- Whether `const` is a word of a type. -/
def isConstType (type : String) : Bool :=
  (Text.runs (!Text.isIdentRest ·) type.toList).contains "const".toList

/-- Whether a type is some pointer to characters. -/
def isCharPointerType (type : String) : Bool :=
  isPointerType type && Text.contains type "char"

def declarator (type name : String) : String := s!"{type} {name}"

/-- One declared function pointer. -/
structure Declaration where
  name : String
  returnType : String
  args : List Argument
  /-- The text it was read from. -/
  text : String
  line : Nat
  deriving DecidableEq, Repr

namespace Declaration

/-- The return type of a declaration that could not be read. -/
def unparsableType : String := "NULL"

/-- Stands in for a declaration that could not be read. -/
def unparsable (name text : String) (line : Nat) : Declaration where
  name := name
  returnType := unparsableType
  args := []
  text := text
  line := line

def isUnparsable (d : Declaration) : Bool := d.returnType == unparsableType

def returnsVoid (d : Declaration) : Bool := d.returnType == "void"

def isVariadic (d : Declaration) : Bool := d.args.any (·.isVariadic)

def fixed (d : Declaration) : List Parameter := d.args.filterMap (·.fixed?)

/-- The name without the mark of a function pointer. -/
def bareName (d : Declaration) : String := (Text.dropLead? "pfn" d.name).getD d.name

def scriptName (d : Declaration) : String := Text.camelCase d.bareName

end Declaration

end ScriptGlue
