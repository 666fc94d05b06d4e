/-!
# Writing JSON

Values of the JSON data format and their text over several lines, indented by two spaces.
-/
namespace ScriptGlue

/-- A value with ordered fields. Numbers are natural. -/
inductive JsonValue where
  | null
  | bool (b : Bool)
  | number (n : Nat)
  | text (s : String)
  | list (items : List JsonValue)
  | record (fields : List (String × JsonValue))
  deriving Repr

namespace JsonValue

def ofOption {α : Type} (f : α → JsonValue) : Option α → JsonValue
  | some a => f a
  | none => null

def hexDigit (n : Nat) : Char := if n < 10 then Char.ofNat (48 + n) else Char.ofNat (87 + n)

def escapeChar (c : Char) : List Char :=
  match c with
  | '"' => ['\\', '"']
  | '\\' => ['\\', '\\']
  | '\x08' => ['\\', 'b']
  | '\x0c' => ['\\', 'f']
  | '\n' => ['\\', 'n']
  | '\r' => ['\\', 'r']
  | '\t' => ['\\', 't']
  | c =>
    if c.toNat < 32 then
      ['\\', 'u', '0', '0', hexDigit (c.toNat / 16), hexDigit (c.toNat % 16)]
    else [c]

def quoted (s : String) : String :=
  String.ofList (('"' :: s.toList.flatMap escapeChar) ++ ['"'])

/-- The line ends and indentation before an item. -/
def breakLine (depth : Nat) : String := "\n" ++ String.join (List.replicate depth "  ")

mutual

/-- The text of a value inside `depth` lists and records. -/
def print (depth : Nat) : JsonValue → String
  | null => "null"
  | bool b => if b then "true" else "false"
  | number n => toString n
  | text s => quoted s
  | list [] => "[]"
  | list (v :: r) =>
    "[" ++ String.join (printItems (depth + 1) "" (v :: r)) ++ breakLine depth ++ "]"
  | record [] => "\x7b\x7d"
  | record (f :: r) =>
    "\x7b" ++ String.join (printFields (depth + 1) "" (f :: r)) ++ breakLine depth ++ "\x7d"

/-- The texts of items, each on lines of its own, with `comma` before the first. -/
def printItems (depth : Nat) (comma : String) : List JsonValue → List String
  | [] => []
  | v :: r => (comma ++ breakLine depth ++ print depth v) :: printItems depth "," r

/-- The texts of fields, each on lines of its own, with `comma` before the first. -/
def printFields (depth : Nat) (comma : String) : List (String × JsonValue) → List String
  | [] => []
  | (k, v) :: r =>
    (comma ++ breakLine depth ++ quoted k ++ ": " ++ print depth v) :: printFields depth "," r

end

def pretty (v : JsonValue) : String := v.print 0

end JsonValue

end ScriptGlue
