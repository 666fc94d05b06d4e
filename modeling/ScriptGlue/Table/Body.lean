import ScriptGlue.Declaration.Reading
import ScriptGlue.Table.Basic

/-!
# Table bodies

A header declares a table as `typedef struct … { … } NAME;`. The text between the braces is cut into
lines, freed of comments, blank lines and directives; lines are joined while a parenthesis is open.
-/
namespace ScriptGlue

structure SourceLine where
  text : String
  line : Nat
  deriving DecidableEq, Repr

structure TableLines where
  declarations : List SourceLine
  /-- Directives, which no declaration can be made from. -/
  skipped : List SourceLine
  deriving DecidableEq, Repr

namespace TableLines

/-- Drops comments from a line. The flag tells whether a block comment is open, before and after. -/
def stripComments : Bool → List Char → Bool × List Char
  | inBlock, [] => (inBlock, [])
  | true, '*' :: '/' :: r => stripComments false r
  | true, _ :: r => stripComments true r
  | false, '/' :: '*' :: r => stripComments true r
  | false, '/' :: '/' :: _ => (false, [])
  | false, c :: r =>
    let (inBlock, kept) := stripComments false r
    (inBlock, c :: kept)

/-- Drops comments from consecutive lines. -/
def stripAll (inBlock : Bool) : List (List Char) → List (List Char)
  | [] => []
  | l :: r =>
    let (inBlock, kept) := stripComments inBlock l
    kept :: stripAll inBlock r

/-- Numbers lines from `line` on. -/
def numbered (line : Nat) : List (List Char) → List SourceLine
  | [] => []
  | l :: r => ⟨String.ofList (Text.trimChars l), line⟩ :: numbered (line + 1) r

/-- The lines that hold more than blanks and comments, trimmed. -/
def contentLines (body : String) (firstLine : Nat) : List SourceLine :=
  (numbered firstLine (stripAll false (Text.lineChars body.toList))).filter (!·.text.isEmpty)

def isDirective (l : SourceLine) : Bool := Text.startsWith l.text "#"

/-- How many more parentheses a text opens than it closes. -/
def parenBalance (s : List Char) : Int :=
  s.foldl (fun n c => if c = '(' then n + 1 else if c = ')' then n - 1 else n) 0

/-- Appends a line after a space; the line of the result is that of its first part. -/
def joinLine (pending : Option SourceLine) (l : SourceLine) : SourceLine :=
  match pending with
  | some p => ⟨s!"{p.text} {l.text}", p.line⟩
  | none => l

/-- Joins each line with those before it as long as they leave a parenthesis open. -/
def joinOpen (pending : Option SourceLine) : List SourceLine → List SourceLine
  | [] => pending.toList
  | l :: r =>
    let joined := joinLine pending l
    if 0 < parenBalance joined.text.toList then joinOpen (some joined) r
    else joined :: joinOpen none r

/-- The lines of a body whose first line has the given number. -/
def ofBody (body : String) (firstLine : Nat) : TableLines :=
  let content := contentLines body firstLine
  ⟨joinOpen none (content.filter (!isDirective ·)), content.filter isDirective⟩

def skipRemark (l : SourceLine) : String :=
  s!"line {l.line}: skipping preprocessor line `{l.text}` inside table"

def clean (body : String) (firstLine : Nat) : Logged TableLines := do
  let result := ofBody body firstLine
  let _ ← Logged.forEach (fun l => Logged.warn (skipRemark l)) result.skipped
  return result

/-- The brace that closes a struct of the given name, with the tokens before it, last first. -/
def closing? (name : String) : List Token → List Token → Option (Token × List Token)
  | before, a :: b :: c :: r =>
    if a.kind = .closeBrace ∧ b.isNamed name ∧ c.kind = .semicolon then some (a, before)
    else closing? name (a :: before) (b :: c :: r)
  | _, _ => none

/-- The brace that opens the innermost open block; `depth` counts closed blocks to be passed. -/
def opening? : Nat → List Token → Option Token
  | _, [] => none
  | depth, t :: r =>
    match t.kind, depth with
    | .closeBrace, _ => opening? (depth + 1) r
    | .openBrace, 0 => some t
    | .openBrace, depth + 1 => opening? depth r
    | _, _ => opening? depth r

/-- The text between the braces of a table, and the line of the opening one. -/
def body? (header : String) (table : Table) : Option (String × Nat) := do
  let source := header.toList
  let (close, before) ← closing? table.structName [] (Token.scan source 1).tokens
  let brace ← opening? 0 before
  return (Span.text ⟨brace.span.stop, close.span.start, brace.span.line⟩ source, brace.span.line)

def ofHeader (header : String) (table : Table) : Except Fault (Logged TableLines) :=
  match body? header table with
  | some (body, line) => .ok (clean body line)
  | none => .error (.missingTable table.structName)

end TableLines

/-- A table with its declarations in order. -/
structure ParsedTable where
  table : Table
  declarations : List Declaration
  skipped : List SourceLine
  deriving DecidableEq, Repr

namespace ParsedTable

def ofHeader (header : String) (table : Table) : Except Fault (Logged ParsedTable) := do
  let lines ← TableLines.ofHeader header table
  return do
    let lines ← lines
    let declarations ← Logged.forEach (fun l => Declaration.ofLine l.text l.line) lines.declarations
    return ⟨table, declarations, lines.skipped⟩

/-- The declarations that could not be read. -/
def unparsable (p : ParsedTable) : List Declaration := p.declarations.filter (·.isUnparsable)

end ParsedTable

end ScriptGlue
