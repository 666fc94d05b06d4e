import ScriptGlue.Declaration.Basic
import ScriptGlue.Journal
import ScriptGlue.Source.Reader

/-!
# Reading declarations

A declaration is read as `RET (*NAME)(ARGS)`. Arguments that make no sense become untyped pointers,
and a declaration that makes no sense as a whole becomes a stand-in, so reading a line always
succeeds.
-/
namespace ScriptGlue

namespace Declaration

open Token (Kind)

/-- Words that end a type and never name a parameter. -/
def typeWords : List String :=
  ["int", "char", "short", "long", "float", "double", "signed", "unsigned", "void"]

/-- Words that only qualify the type after them. -/
def qualifiers : List String := ["const", "struct", "enum", "unsigned", "signed", "volatile"]

def textBetween (source : List Char) (first last : Token) : String :=
  Text.trim (Span.text ⟨first.span.start, last.span.stop, first.span.line⟩ source)

/-- Identifiers and stars only, and at least one. -/
def isTypeRun (ts : List Token) : Bool := !ts.isEmpty && ts.all (·.kind.isTypePart)

def onlyQualifiers (ts : List Token) : Bool :=
  ts.all fun t => t.name?.any qualifiers.contains

/-- The tokens before the parenthesis that closes the list they are in; `depth` counts those still
open inside it. -/
def enclosed : Nat → List Token → Option (List Token)
  | _, [] => none
  | depth, t :: r =>
    match t.kind, depth with
    | .openParen, _ => (enclosed (depth + 1) r).map (t :: ·)
    | .closeParen, 0 => some []
    | .closeParen, depth + 1 => (enclosed depth r).map (t :: ·)
    | _, _ => (enclosed depth r).map (t :: ·)

def intoFirst (t : Token) : List (List Token) → List (List Token)
  | [] => [[t]]
  | chunk :: r => (t :: chunk) :: r

/-- Cuts at the commas that stand outside all parentheses. -/
def splitCommas : Nat → List Token → List (List Token)
  | _, [] => [[]]
  | depth, t :: r =>
    match t.kind, depth with
    | .openParen, _ => intoFirst t (splitCommas (depth + 1) r)
    | .closeParen, _ => intoFirst t (splitCommas (depth - 1) r)
    | .comma, 0 => [] :: splitCommas 0 r
    | _, _ => intoFirst t (splitCommas depth r)

/-- The arguments between two parentheses; nothing between them means no argument. -/
def chunks (ts : List Token) : List (List Token) :=
  if ts.isEmpty then [] else splitCommas 0 ts

/-- What follows the first `( *`. -/
def afterPointerMark : List Token → Option (List Token)
  | a :: b :: r =>
    if a.kind = .openParen ∧ b.kind = .star then some r else afterPointerMark (b :: r)
  | _ => none

/-- The name of a function pointer whose `( *` has been passed. -/
def pointerName? : List Token → Option String
  | t :: close :: _ => if close.kind = .closeParen then t.name? else none
  | _ => none

/-- The name, the length and the leading tokens of `TYPE name[N]`. -/
def arrayParts? (chunk : List Token) : Option (String × Nat × List Token) :=
  match chunk.reverse with
  | close :: size :: bracket :: name :: lead =>
    if bracket.kind = .openBracket ∧ close.kind = .closeBracket ∧ isTypeRun lead.reverse then
      match name.name?, size.kind.toNat? with
      | some name, some size => some (name, size, lead.reverse)
      | _, _ => none
    else none
  | _ => none

/-- The argument that the tokens between two commas stand for. A pointer to a function is untyped,
an array is a pointer with a known length, a bare type gets a name from its position, and so does
what cannot be understood. -/
def argument (source : List Char) (index : Nat) (chunk : List Token) : Argument :=
  let unnamed (type : String) : Argument := .fixed { name := s!"value{index}", type := type }
  match chunk.head?, chunk.getLast? with
  | some first, some last =>
    if chunk.length = 1 ∧ first.kind = .ellipsis then .variadic
    else
      match afterPointerMark chunk with
      | some rest =>
        .fixed { name := (pointerName? rest).getD s!"callback{index}", type := "void*" }
      | none =>
        match arrayParts? chunk with
        | some (name, size, lead) =>
          let type := textBetween source first (lead.getLastD first)
          .fixed { name := name, type := s!"{type}*", size := some size }
        | none =>
          if !isTypeRun chunk then unnamed "void*"
          else
            let stars := chunk.countP (·.kind = .star)
            if chunk.length - stars = 1 ∧ stars ≤ 1 ∧ first.name?.isSome then
              unnamed (textBetween source first last)
            else
              let lead := chunk.dropLast
              match last.name? with
              | some name =>
                if !typeWords.contains name && !onlyQualifiers lead then
                  let type := textBetween source first (lead.getLastD first)
                  .fixed { name := name, type := type }
                else unnamed (textBetween source first last)
              | none => unnamed (textBetween source first last)
  | _, _ => unnamed "void*"

/-- Whether the tokens between two commas are the lone word `void`. -/
def isLoneVoid (chunk : List Token) : Bool :=
  match chunk with
  | [t] => t.isNamed "void"
  | _ => false

def arguments (source : List Char) (ts : List Token) : List Argument :=
  ((chunks ts).filter (!isLoneVoid ·)).mapIdx (argument source)

/-- Reads a declaration; whatever follows its arguments is ignored. -/
def reader (source : List Char) (text : String) (line : Nat) : Reader Declaration := do
  let s ← get
  let run := s.tokens.takeWhile (·.kind.isTypePart)
  match run.head?, run.getLast? with
  | some first, some last =>
    set { s with tokens := s.tokens.dropWhile (·.kind.isTypePart) }
    let _ ← Reader.expect .openParen
    let _ ← Reader.expect .star
    let name ← Reader.expectName
    let _ ← Reader.expect .closeParen
    let paren ← Reader.expect .openParen
    match enclosed 0 (← get).tokens with
    | some inner =>
      return {
        name := name
        returnType := textBetween source first last
        args := arguments source inner
        text := text
        line := line }
    | none =>
      throw (.malformedDeclaration "unbalanced parentheses in argument list" paren.span)
  | _, _ => throw (.malformedDeclaration "missing return type" (← Reader.peek).span)

def read (source text : String) (line : Nat) : Except Fault Declaration :=
  (reader source.toList text line).run' (Token.scan source.toList line)

/-- The name in the first `( * NAME )`. -/
def firstPointerName? : List Token → Option String
  | a :: b :: c :: d :: r =>
    if a.kind = .openParen ∧ b.kind = .star ∧ c.name?.isSome ∧ d.kind = .closeParen then c.name?
    else firstPointerName? (b :: c :: d :: r)
  | _ => none

def ofLine (text : String) (line : Nat) : Logged Declaration :=
  let collapsed := Text.collapse text
  match read collapsed text line with
  | .ok d => pure d
  | .error fault => do
    Logged.warn s!"line {line}: {fault.message} in `{collapsed}`"
    let tokens := (Token.scan collapsed.toList line).tokens
    return unparsable ((firstPointerName? tokens).getD s!"unknown{line}") text line

end Declaration

end ScriptGlue
