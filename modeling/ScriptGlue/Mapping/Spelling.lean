import ScriptGlue.Text.Blank

/-!
# Spellings of native types

Types are looked up by a spelling that does not depend on spacing, or by the word that is left
without qualifiers and stars.
-/
namespace ScriptGlue.Mapping

def pointerDepth (type : String) : Nat := type.toList.count '*'

/-- The words of a type, where stars separate words as blanks do. -/
def typeWords (type : String) : List String :=
  (Text.runs (fun c => c == '*' || Text.isBlank c) type.toList).map String.ofList

/-- Words joined by one space, stars at the end. -/
def canonical (type : String) : String :=
  " ".intercalate (typeWords type) ++ String.ofList (List.replicate (pointerDepth type) '*')

/-- The type without `const`, `struct` and stars. -/
def baseName (type : String) : String :=
  " ".intercalate ((typeWords type).filter fun w => w ≠ "const" && w ≠ "struct")

end ScriptGlue.Mapping
