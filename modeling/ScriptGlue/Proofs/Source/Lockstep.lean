import ScriptGlue.Proofs.Source.Reader
import ScriptGlue.Proofs.Source.Squeezing

/-!
# Readers in lockstep

A reader that looks at kinds of tokens only goes the same way over a source and over the squeezed
one: it takes the same number of tokens, and it succeeds on both or fails on both with faults that
differ in nothing but their place. This is shown step by step, for readers are made of few steps.
-/
namespace ScriptGlue

open Token (Kind)

/-- A fault without its place. -/
def Fault.unplaced : Fault → Fault
  | unexpectedToken expected got _ => .unexpectedToken expected got (.ofLine 0)
  | malformedDeclaration reason _ => .malformedDeclaration reason (.ofLine 0)
  | fault => fault

/-- Messages do not tell the place. -/
theorem Fault.message_unplaced (f : Fault) : f.unplaced.message = f.message := by
  cases f <;> rfl

/-- Both results are related values, or both are faults that differ in nothing but their place. -/
inductive SameOutcome {α β : Type} (related : α → β → Prop) : Except Fault α → Except Fault β → Prop
  | failed {f f' : Fault} (same : f'.unplaced = f.unplaced) :
      SameOutcome related (.error f) (.error f')
  | done {a : α} {b : β} (both : related a b) : SameOutcome related (.ok a) (.ok b)

/-- Two readers with the same outcome both fail for the same fault, or both succeed on related
values. -/
theorem SameOutcome.outcomes {α β : Type} {related : α → β → Prop} {x : Except Fault α}
    {y : Except Fault β} (same : SameOutcome related x y) :
    (∃ f f', x = .error f ∧ y = .error f' ∧ f'.unplaced = f.unplaced) ∨
      ∃ a b, x = .ok a ∧ y = .ok b ∧ related a b := by
  cases same with
  | failed same => exact .inl ⟨_, _, rfl, rfl, same⟩
  | done both => exact .inr ⟨_, _, rfl, rfl, both⟩

namespace Reader

variable {source source' : List Char} {α β γ δ : Type} {related : α → β → Prop}
  {results : γ → δ → Prop} {p : Reader α} {p' : Reader β}

/-- Two readers go the same way over a source and over the squeezed one. -/
def Lockstep (source source' : List Char) (related : α → β → Prop) (p : Reader α)
    (p' : Reader β) : Prop :=
  ∀ ⦃s s' : Token.Stream⦄, s.Moved source source' s' →
    SameOutcome (fun x y => related x.1 y.1 ∧ x.2.Moved source source' y.2) (p s) (p' s')

namespace Lockstep

theorem pure {a : α} {b : β} (both : related a b) :
    Lockstep source source' related (pure a) (pure b) := fun _ _ moved => .done ⟨both, moved⟩

theorem throw {f f' : Fault} (same : f'.unplaced = f.unplaced) :
    Lockstep source source' related (throw f) (throw f') := fun _ _ _ => .failed same

/-- What is read is related, whatever is left. -/
theorem run' (steps : Lockstep source source' related p p') {s s' : Token.Stream}
    (moved : s.Moved source source' s') : SameOutcome related (p.run' s) (p'.run' s') := by
  rw [StateT.run', StateT.run']
  rcases (steps moved).outcomes with ⟨f, f', fails, fails', same⟩ | ⟨a, b, done, done', both⟩
  · rw [fails, fails']
    exact .failed same
  · rw [done, done']
    exact .done both.1

/-- What goes the same way twice goes the same way. -/
theorem bind {f : α → Reader γ} {f' : β → Reader δ} (first : Lockstep source source' related p p')
    (next : ∀ a b, related a b → Lockstep source source' results (f a) (f' b)) :
    Lockstep source source' results (p >>= f) (p' >>= f') := by
  intro s s' moved
  rcases (first moved).outcomes with ⟨_, _, fails, fails', same⟩ | ⟨a, b, done, done', both⟩
  · simp only [Bind.bind, StateT.bind, fails, fails', Except.bind]
    exact .failed same
  · rw [bind_eq done, bind_eq done']
    exact next _ _ both.1 both.2

theorem get : Lockstep source source' (Token.Stream.Moved source source') get get :=
  fun _ _ moved => .done ⟨moved, moved⟩

theorem set {t t' : Token.Stream} (moved : t.Moved source source' t') :
    Lockstep source source' (fun _ _ => True) (set t) (set t') :=
  fun _ _ _ => .done ⟨trivial, moved⟩

theorem peek : Lockstep source source' (fun t t' => t'.kind = t.kind) peek peek := by
  intro s s' moved
  refine .done ⟨?_, moved⟩
  obtain ⟨pairs, row, tokens, tokens'⟩ := moved
  rw [Token.Stream.current, Token.Stream.current, tokens, tokens']
  cases pairs with
  | nil => rfl
  | cons x r => exact (row.each x List.mem_cons_self).kind_eq

theorem advance : Lockstep source source' (fun _ _ => True) advance advance := by
  intro s s' moved
  refine .done ⟨trivial, ?_⟩
  obtain ⟨pairs, row, tokens, tokens'⟩ := moved
  refine ⟨pairs.tail, row.sublist (List.tail_sublist pairs), ?_, ?_⟩
  · rw [Token.Stream.tail, tokens, List.map_tail]
  · rw [Token.Stream.tail, tokens', List.map_tail]

theorem refuse (expected : String) {t t' : Token} (same : t'.kind = t.kind) :
    Lockstep source source' related (refuse expected t) (refuse expected t') := by
  refine throw ?_
  rw [Fault.unplaced, Fault.unplaced, same]

theorem expect (kind : Kind) :
    Lockstep source source' (fun _ _ => True) (expect kind) (expect kind) := by
  refine bind peek fun t t' same => ?_
  rw [same]
  split
  · exact advance
  · exact refuse _ same

theorem expectName : Lockstep source source' Eq expectName expectName := by
  refine bind peek fun t t' same => ?_
  have named : t'.name? = t.name? := congrArg Kind.name? same
  rw [named]
  cases t.name? with
  | none => exact refuse _ same
  | some name => exact bind advance fun _ _ _ => pure rfl

end Lockstep

end Reader

end ScriptGlue
