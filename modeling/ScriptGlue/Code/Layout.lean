import ScriptGlue.Text.Blank

/-!
# Layout of generated code

Generated code is a sequence of lines between which the indentation goes in and out. Only when it
is rendered does a unit of indentation matter.
-/
namespace ScriptGlue.Code

inductive Step where
  | line (text : String)
  /-- Indents the following lines by one more unit. -/
  | enter
  /-- Takes one unit back, if there is one. -/
  | leave
  deriving DecidableEq, Repr

abbrev Layout := List Step

namespace Layout

def blank : Step := .line ""

def ofText (text : String) : Layout := (Text.lines text).map .line

def opening (head : String) : Layout := [.line (head ++ " \x7b"), .enter]

def closing (closer : String) : Layout := [.leave, .line closer]

def block (head : String) (body : Layout) (closer : String) : Layout :=
  opening head ++ body ++ closing closer

def scope (body : Layout) : Layout := [.line "\x7b", .enter] ++ body ++ closing "\x7d"

/-- One line of output. Empty lines are not indented. -/
def lineText (unit : String) (depth : Nat) (text : String) : String :=
  if text.isEmpty then "\n" else String.join (List.replicate depth unit) ++ text ++ "\n"

def lineTexts (unit : String) : Nat → Layout → List String
  | _, [] => []
  | depth, .line text :: r => lineText unit depth text :: lineTexts unit depth r
  | depth, .enter :: r => lineTexts unit (depth + 1) r
  | depth, .leave :: r => lineTexts unit (depth - 1) r

def depthAfter : Nat → Layout → Nat
  | depth, [] => depth
  | depth, .line _ :: r => depthAfter depth r
  | depth, .enter :: r => depthAfter (depth + 1) r
  | depth, .leave :: r => depthAfter (depth - 1) r

def renderAt (unit : String) (depth : Nat) (layout : Layout) : String :=
  String.join (lineTexts unit depth layout)

/-- Two spaces, unless a file says otherwise. -/
def defaultUnit : String := "  "

def render (layout : Layout) : String := renderAt defaultUnit 0 layout

end Layout

end ScriptGlue.Code
