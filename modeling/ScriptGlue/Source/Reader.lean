import ScriptGlue.Fault
import ScriptGlue.Source.Scanner

/-!
# Reading tokens

Readers take tokens off the front of a stream or fail. The end of the stream can be looked at but
not taken.
-/
namespace ScriptGlue

abbrev Reader := StateT Token.Stream (Except Fault)

namespace Token.Stream

/-- The next token, or the end mark. -/
def current (s : Stream) : Token := s.tokens.headD ⟨.stop, s.stop⟩

/-- The stream without its next token. -/
def tail (s : Stream) : Stream := { s with tokens := s.tokens.tail }

end Token.Stream

namespace Reader

def peek : Reader Token := do return (← get).current

def advance : Reader Token := do
  let s ← get
  set s.tail
  return s.current

/-- Refuses a token where `expected` is needed. -/
def refuse {α : Type} (expected : String) (t : Token) : Reader α :=
  throw (.unexpectedToken expected t.kind.describe t.span)

/-- Takes the next token, which must be of the given kind. -/
def expect (kind : Token.Kind) : Reader Token := do
  let t ← peek
  if t.kind = kind then advance else refuse kind.describe t

/-- Takes the next token, which must be an identifier. -/
def expectName : Reader String := do
  let t ← peek
  match t.name? with
  | some name => do
    let _ ← advance
    return name
  | none => refuse "identifier" t

/-- Takes the next token if it is of the given kind. -/
def skip (kind : Token.Kind) : Reader Unit := do
  let t ← peek
  if t.kind = kind then
    let _ ← advance

/-- A reader that never gives tokens back. -/
def Shrinks {α : Type} (p : Reader α) : Prop :=
  ∀ {s : Token.Stream} {a : α} {s' : Token.Stream},
    p s = .ok (a, s') → s'.tokens.length ≤ s.tokens.length

theorem shrinks_pure {α : Type} (a : α) : Shrinks (pure a : Reader α) := by
  intro s b s' h
  cases h
  exact Nat.le_refl _

theorem shrinks_throw {α : Type} (fault : Fault) : Shrinks (throw fault : Reader α) := by
  intro s b s' h
  cases h

theorem shrinks_bind {α β : Type} {p : Reader α} {f : α → Reader β} (hp : Shrinks p)
    (hf : ∀ a, Shrinks (f a)) : Shrinks (p >>= f) := by
  intro s b s' h
  match hs : p s with
  | .error fault =>
    simp only [bind, StateT.bind, hs, Except.bind] at h
    cases h
  | .ok (a, t) =>
    simp only [bind, StateT.bind, hs, Except.bind] at h
    exact Nat.le_trans (hf a h) (hp hs)

theorem shrinks_peek : Shrinks peek := by
  intro s b s' h
  cases h
  exact Nat.le_refl _

theorem shrinks_advance : Shrinks advance := by
  intro s b s' h
  cases h
  simp [Token.Stream.tail]

theorem shrinks_refuse {α : Type} (expected : String) (t : Token) :
    Shrinks (refuse expected t : Reader α) :=
  shrinks_throw _

theorem shrinks_expect (kind : Token.Kind) : Shrinks (expect kind) := by
  refine shrinks_bind shrinks_peek fun t => ?_
  split
  · exact shrinks_advance
  · exact shrinks_refuse _ _

theorem shrinks_skip (kind : Token.Kind) : Shrinks (skip kind) := by
  refine shrinks_bind shrinks_peek fun t => ?_
  split
  · exact shrinks_bind shrinks_advance fun _ => shrinks_pure _
  · exact shrinks_pure _

end Reader

end ScriptGlue
