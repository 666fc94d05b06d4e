import ScriptGlue.Text.Casing

/-!
# Camel case

Names as scripts see them: no underscores, a small first letter, and a capital wherever an
underscore stood.
-/
namespace ScriptGlue.Text

/-- Drops underscores; a character right after one or more of them is raised. -/
def raiseAfterUnderscore (raise : Bool) : List Char → List Char
  | [] => []
  | '_' :: r => raiseAfterUnderscore true r
  | c :: r => (if raise then upperChar c else [c]) ++ raiseAfterUnderscore false r

/-- The camel case of a name. Only a first character that is not an underscore is lowered. -/
def camelCase (name : String) : String :=
  String.ofList <|
    match name.toList with
    | [] => []
    | '_' :: r => raiseAfterUnderscore true r
    | c :: r => lowerChar c ++ raiseAfterUnderscore false r

end ScriptGlue.Text
