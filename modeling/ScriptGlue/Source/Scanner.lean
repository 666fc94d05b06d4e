import ScriptGlue.Source.Token
import ScriptGlue.Text.Blank
import ScriptGlue.Text.Letter

/-!
# Scanning

A source is cut into tokens from left to right. Between tokens lie gaps: blanks, comments and
directive lines. A step takes a nonempty piece off the front, so the scan ends.
-/
namespace ScriptGlue

/-- A place in the source, and what decides whether a `#` there opens a directive. -/
structure Place where
  offset : Nat
  line : Nat
  /-- Only blanks stand before this place on its line. -/
  fresh : Bool
  deriving DecidableEq, Repr

namespace Place

/-- The first place of a source whose first line has the given number. -/
def first (line : Nat) : Place := ⟨0, line, true⟩

/-- The place after one character. -/
def next (p : Place) (c : Char) : Place where
  offset := p.offset + 1
  line := if c = '\n' then p.line + 1 else p.line
  fresh := c == '\n' || (p.fresh && Text.isBlank c)

def after (p : Place) (piece : List Char) : Place := piece.foldl next p

end Place

/-- A piece taken off the front of a text. -/
structure Cut where
  piece : List Char
  rest : List Char
  deriving DecidableEq, Repr

namespace Cut

def cons (c : Char) (cut : Cut) : Cut := { cut with piece := c :: cut.piece }

/-- Takes the longest piece whose characters all satisfy `p`. -/
def span (p : Char → Bool) : List Char → Cut
  | [] => ⟨[], []⟩
  | c :: r => if p c then (span p r).cons c else ⟨[], c :: r⟩

/-- The rest of the current line, without its end. -/
def line : List Char → Cut := span (· ≠ '\n')

/-- The inside of a block comment with its closing mark; an open comment takes everything. -/
def blockComment : List Char → Cut
  | [] => ⟨[], []⟩
  | '*' :: '/' :: r => ⟨['*', '/'], r⟩
  | c :: r => (blockComment r).cons c

/-- The rest of a directive: up to the first line end that has no backslash before it. -/
def directive : List Char → Cut
  | [] => ⟨[], []⟩
  | '\\' :: '\n' :: r => ((directive r).cons '\n').cons '\\'
  | '\n' :: r => ⟨[], '\n' :: r⟩
  | c :: r => (directive r).cons c

end Cut

namespace Token

/-- The blanks that separate tokens. -/
def isSpace (c : Char) : Bool := c == ' ' || c == '\t' || c == '\r' || c == '\n'

/-- The gap, if any, that starts here: a blank, a comment, or, where only blanks stand before it on
the line, a directive. -/
def gap? (fresh : Bool) : List Char → Option Cut
  | [] => none
  | c :: r =>
    if isSpace c then some ⟨[c], r⟩
    else
      match c, r with
      | '/', '/' :: _ => some ((Cut.line r).cons '/')
      | '/', '*' :: r' => some (((Cut.blockComment r').cons '*').cons '/')
      | '#', _ => if fresh then some ((Cut.directive r).cons '#') else none
      | _, _ => none

structure Lexeme where
  kind : Kind
  cut : Cut
  /-- The width of the token; it exceeds the piece by one where a backslash is the last character
  of the source inside a string. -/
  width : Nat
  deriving DecidableEq, Repr

/-- What a string literal holds after its opening quote. -/
structure LiteralBody where
  value : List Char
  cut : Cut
  /-- The source ends right after a backslash. -/
  dangling : Bool
  deriving DecidableEq, Repr

/-- Adds consumed characters and what they stand for to the front of a literal. -/
def LiteralBody.push (value piece : List Char) (b : LiteralBody) : LiteralBody :=
  { b with value := value ++ b.value, cut := ⟨piece ++ b.cut.piece, b.cut.rest⟩ }

/-- The character that a backslash and a letter stand for. -/
def unescape : Char → Char
  | 'n' => '\n'
  | 't' => '\t'
  | c => c

/-- Reads a string literal after its opening quote. It ends at the closing quote, before a line
end, or with the source. -/
def literalBody : List Char → LiteralBody
  | [] => ⟨[], ⟨[], []⟩, false⟩
  | '"' :: r => ⟨[], ⟨['"'], r⟩, false⟩
  | ['\\'] => ⟨[], ⟨['\\'], []⟩, true⟩
  | '\\' :: c :: r => (literalBody r).push [unescape c] ['\\', c]
  | '\n' :: r => ⟨[], ⟨[], '\n' :: r⟩, false⟩
  | c :: r => (literalBody r).push [c] [c]

def markKind : Char → Kind
  | '*' => .star
  | '(' => .openParen
  | ')' => .closeParen
  | '{' => .openBrace
  | '}' => .closeBrace
  | '[' => .openBracket
  | ']' => .closeBracket
  | ',' => .comma
  | ';' => .semicolon
  | '=' => .equals
  | c => .other c

/-- A number goes on through letters, digits and points. -/
def isNumberRest (c : Char) : Bool := c.isAlphanum || c == '.'

/-- The token that starts with `c` and may go on into `r`. -/
def lexeme (c : Char) (r : List Char) : Lexeme :=
  if Text.isIdentStart c then
    let cut := (Cut.span Text.isIdentRest r).cons c
    ⟨.ident (String.ofList cut.piece), cut, cut.piece.length⟩
  else if c.isDigit then
    let cut := (Cut.span isNumberRest r).cons c
    ⟨.number (String.ofList cut.piece), cut, cut.piece.length⟩
  else if c = '"' then
    let body := literalBody r
    let cut := body.cut.cons c
    ⟨.literal (String.ofList body.value), cut, cut.piece.length + if body.dangling then 1 else 0⟩
  else
    match c, r with
    | '.', '.' :: '.' :: r' => ⟨.ellipsis, ⟨['.', '.', '.'], r'⟩, 3⟩
    | _, _ => ⟨markKind c, ⟨[c], r⟩, 1⟩

end Token

namespace Cut

@[simp] theorem cons_rest (c : Char) (cut : Cut) : (cut.cons c).rest = cut.rest := rfl

theorem span_rest_le (p : Char → Bool) (s : List Char) : (span p s).rest.length ≤ s.length := by
  induction s with
  | nil => simp [span]
  | cons c r ih =>
    rw [span]
    split
    · exact Nat.le_trans ih (Nat.le_succ _)
    · exact Nat.le_refl _

theorem blockComment_rest_le (s : List Char) : (blockComment s).rest.length ≤ s.length := by
  fun_induction blockComment s with
  | case1 => simp
  | case2 r => simp only [List.length_cons]; omega
  | case3 c r _ ih => simp only [cons_rest, List.length_cons]; omega

theorem directive_rest_le (s : List Char) : (directive s).rest.length ≤ s.length := by
  fun_induction directive s with
  | case1 => simp
  | case2 r ih => simp only [cons_rest, List.length_cons]; omega
  | case3 r => simp
  | case4 c r _ _ ih => simp only [cons_rest, List.length_cons]; omega

end Cut

namespace Token

theorem gap?_rest_lt {fresh : Bool} {s : List Char} {cut : Cut} (h : gap? fresh s = some cut) :
    cut.rest.length < s.length := by
  unfold gap? at h
  split at h
  · simp at h
  · rename_i c r
    split at h
    · simp only [Option.some.injEq] at h
      simp [← h]
    · split at h
      · rename_i tail _
        simp only [Option.some.injEq] at h
        have := Cut.span_rest_le (· ≠ '\n') ('/' :: tail)
        simp only [← h, Cut.cons_rest, Cut.line, List.length_cons] at this ⊢
        omega
      · rename_i r' _
        simp only [Option.some.injEq] at h
        have := Cut.blockComment_rest_le r'
        simp only [← h, Cut.cons_rest, List.length_cons]
        omega
      · split at h
        · simp only [Option.some.injEq] at h
          have := Cut.directive_rest_le r
          simp only [← h, Cut.cons_rest, List.length_cons]
          omega
        · simp at h
      · simp at h

theorem literalBody_rest_le (s : List Char) : (literalBody s).cut.rest.length ≤ s.length := by
  fun_induction literalBody s <;> simp_all [LiteralBody.push] <;> omega

theorem lexeme_rest_le (c : Char) (r : List Char) : (lexeme c r).cut.rest.length ≤ r.length := by
  unfold lexeme
  split
  · exact Cut.span_rest_le _ _
  · split
    · exact Cut.span_rest_le _ _
    · split
      · exact literalBody_rest_le r
      · split
        · simp only [List.length_cons]; omega
        · simp

/-- Tokens yet to be read, and the place where they end. -/
structure Stream where
  tokens : List Token
  stop : Span
  deriving DecidableEq, Repr

def Stream.push (t : Token) (s : Stream) : Stream := { s with tokens := t :: s.tokens }

def Stream.all (s : Stream) : List Token := s.tokens ++ [⟨.stop, s.stop⟩]

def scanFrom (p : Place) (s : List Char) : Stream :=
  match _h : gap? p.fresh s with
  | some cut => scanFrom (p.after cut.piece) cut.rest
  | none =>
    match s with
    | [] => ⟨[], ⟨p.offset, p.offset, p.line⟩⟩
    | c :: r =>
      let l := lexeme c r
      let stop := p.offset + l.width
      (scanFrom { p.after l.cut.piece with offset := stop } l.cut.rest).push
        ⟨l.kind, ⟨p.offset, stop, p.line⟩⟩
termination_by s.length
decreasing_by
  · exact gap?_rest_lt _h
  · have := lexeme_rest_le c r
    simp only [List.length_cons]
    omega

/-- The tokens of a source whose first line has the given number. -/
def scan (source : List Char) (firstLine : Nat) : Stream :=
  scanFrom (Place.first firstLine) source

end Token

end ScriptGlue
