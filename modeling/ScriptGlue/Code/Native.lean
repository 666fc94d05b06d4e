import ScriptGlue.Code.Layout
import ScriptGlue.Text.Search

/-!
# Native code

The forms of native code that are generated: function definitions, brace-enclosed lists and include
lines.
-/
namespace ScriptGlue.Code

/-- The lines that a piece of text adds to a body; an empty text adds an empty line. -/
def bodyLines (text : String) : List String := if text.isEmpty then [""] else Text.lines text

structure FunctionDef where
  /-- Lines written above the definition, without the slashes. -/
  comments : List String := []
  signature : String
  body : List String
  /-- The opening brace has a line of its own. -/
  braceOnNewLine : Bool := false
  deriving DecidableEq, Repr

namespace FunctionDef

def layout (f : FunctionDef) : Layout :=
  f.comments.map (fun c => .line ("// " ++ c)) ++
    (if f.braceOnNewLine then .line f.signature :: Layout.scope (f.body.map .line)
    else Layout.block f.signature (f.body.map .line) "\x7d")

def source (f : FunctionDef) : String := f.layout.render

end FunctionDef

/-- One element of a list, with a remark behind it. -/
structure ListedItem where
  text : String
  note : Option String := none
  deriving DecidableEq, Repr

/-- A definition of the form `HEAD = { item, … };`. -/
structure ListDef where
  head : String
  items : List ListedItem
  deriving DecidableEq, Repr

namespace ListDef

/-- The line of an item: a comma unless it is the last, then its remark. -/
def itemLine (comma : String) (item : ListedItem) : Step :=
  match item.note with
  | some note => .line s!"{item.text}{comma} // {note}"
  | none => .line s!"{item.text}{comma}"

def itemLines : List ListedItem → Layout
  | [] => []
  | [item] => [itemLine "" item]
  | item :: r => itemLine "," item :: itemLines r

def layout (d : ListDef) : Layout := Layout.block s!"{d.head} =" (itemLines d.items) "\x7d;"

end ListDef

/-- Include lines; names in angle brackets are not quoted. -/
def includes (headers : List String) : Layout :=
  headers.map fun h =>
    if Text.startsWith h "<" then .line s!"#include {h}" else .line s!"#include \"{h}\""

end ScriptGlue.Code
