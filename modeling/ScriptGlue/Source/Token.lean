import ScriptGlue.Source.Span

/-!
# Tokens

The words and marks of the C dialect that declarations and hook tables are written in. Marks that
no reader looks for are carried as single characters.
-/
namespace ScriptGlue

namespace Token

/-- What a token is. -/
inductive Kind where
  /-- An identifier or a keyword. -/
  | ident (name : String)
  /-- A number as spelled. -/
  | number (spelling : String)
  /-- A string literal, without quotes and escapes. -/
  | literal (value : String)
  | star
  | openParen
  | closeParen
  | openBrace
  | closeBrace
  | openBracket
  | closeBracket
  | comma
  | semicolon
  | equals
  | ellipsis
  /-- Any other single character. -/
  | other (c : Char)
  /-- The end of the source. -/
  | stop
  deriving DecidableEq, Repr

/-- The value of a digit in a base of at most sixteen. -/
def digitValue? (base : Nat) (c : Char) : Option Nat :=
  let n := c.toNat
  let value :=
    if '0' ≤ c ∧ c ≤ '9' then n - 48
    else if 'a' ≤ c ∧ c ≤ 'f' then n - 87
    else if 'A' ≤ c ∧ c ≤ 'F' then n - 55
    else base
  if value < base then some value else none

/-- The natural number that a nonempty list of digits spells. -/
def digits? (base : Nat) (s : List Char) : Option Nat :=
  if s.isEmpty then none
  else s.foldlM (fun acc c => (digitValue? base c).map (acc * base + ·)) 0

/-- Whether a character may end an integer without counting as a digit. -/
def isSuffix (c : Char) : Bool := c == 'u' || c == 'U' || c == 'l' || c == 'L'

/-- Integers are limited to sixty-three bits. -/
def integerLimit : Nat := 0x8000000000000000

/-- The value of an integer literal, decimal or hexadecimal, whose suffix letters are ignored. -/
def integer? (spelling : List Char) : Option Nat :=
  let s := (spelling.reverse.dropWhile isSuffix).reverse
  let value :=
    match s with
    | '0' :: 'x' :: r => digits? 16 r
    | '0' :: 'X' :: r => digits? 16 r
    | _ => digits? 10 s
  value.filter (· < integerLimit)

namespace Kind

/-- The value of a number token, if it is an integer within the limit. -/
def toNat? : Kind → Option Nat
  | number spelling => integer? spelling.toList
  | _ => none

def describe : Kind → String
  | ident name => s!"identifier `{name}`"
  | number spelling => s!"number `{spelling}`"
  | literal value => s!"string \"{value}\""
  | star => "`*`"
  | openParen => "`(`"
  | closeParen => "`)`"
  | openBrace => "`\x7b`"
  | closeBrace => "`\x7d`"
  | openBracket => "`[`"
  | closeBracket => "`]`"
  | comma => "`,`"
  | semicolon => "`;`"
  | equals => "`=`"
  | ellipsis => "`...`"
  | other c => s!"`{c}`"
  | stop => "end of input"

def name? : Kind → Option String
  | ident name => some name
  | _ => none

def literal? : Kind → Option String
  | literal value => some value
  | _ => none

/-- Identifiers and stars, which types are made of. -/
def isTypePart : Kind → Bool
  | ident _ | star => true
  | _ => false

end Kind

end Token

/-- A token and its place. -/
structure Token where
  kind : Token.Kind
  span : Span
  deriving DecidableEq, Repr

namespace Token

def name? (t : Token) : Option String := t.kind.name?

def literal? (t : Token) : Option String := t.kind.literal?

/-- Whether the token is the identifier `name`. -/
def isNamed (t : Token) (name : String) : Bool := t.name? == some name

end Token

end ScriptGlue
