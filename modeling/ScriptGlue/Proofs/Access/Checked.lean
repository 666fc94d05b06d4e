/-!
# Checked steps

A program that goes by position may look behind the end of a list, cut one where it does not reach,
take more from a number than there is, or never come out of a loop. Here each such step is checked,
so that a program can be compared with a function that has no positions: if the two agree then no
check fails and every loop ends.
-/
namespace ScriptGlue

/-- What stops a program. -/
inductive Trap where
  /-- There is nothing at an index, or a range is not inside. -/
  | outOfRange
  /-- A difference is negative. -/
  | underflow
  /-- A sum leaves the range of integers. -/
  | overflow
  deriving DecidableEq, Repr

/-- A program that a trap may stop, and that may never end. -/
abbrev Checked := ExceptT Trap Option

namespace Checked

variable {σ α : Type}

def item (l : List α) (i : Nat) : Checked α :=
  match l[i]? with
  | some a => pure a
  | none => throw .outOfRange

/-- The members from one index up to but not including another. -/
def range (l : List α) (start stop : Nat) : Checked (List α) :=
  if start ≤ stop ∧ stop ≤ l.length then pure ((l.drop start).take (stop - start))
  else throw .outOfRange

def minus (a b : Nat) : Checked Nat := if b ≤ a then pure (a - b) else throw .underflow

/-- A step of a loop: it leads to another state, or it gives the result. -/
abbrev Step (σ α : Type) : Type := σ → Checked (σ ⊕ α)

/-- Repeats a step until it gives a result. -/
def Step.loop (step : Step σ α) (s : σ) : Checked α := do
  let next ← step s
  if done : next.isRight then return next.getRight done
  else step |>.loop (next.getLeft (Sum.not_isRight.mp done))
partial_fixpoint

theorem item_eq {l : List α} {i : Nat} {a : α} (found : l[i]? = some a) : item l i = pure a := by
  rw [item, found]

theorem range_eq {l : List α} {start stop : Nat} (ordered : start ≤ stop)
    (inside : stop ≤ l.length) : range l start stop = pure ((l.drop start).take (stop - start)) :=
  if_pos ⟨ordered, inside⟩

theorem minus_eq {a b : Nat} (enough : b ≤ a) : minus a b = pure (a - b) := if_pos enough

namespace Step

variable {step : Step σ α} {s t : σ} {a : α}

theorem loop_done (done : step s = pure (.inr a)) : loop step s = pure a := by
  rw [loop, done, pure_bind]
  rfl

theorem loop_next (next : step s = pure (.inl t)) : loop step s = loop step t := by
  rw [loop, next, pure_bind]
  rfl

theorem loop_trap {trap : Trap} (stops : step s = throw trap) : loop step s = throw trap := by
  rw [loop, stops]
  rfl

end Step

end Checked

end ScriptGlue
