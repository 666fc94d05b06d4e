/-!
# Journals

Remarks made along the way. A computation with a journal yields a value together with its remarks,
oldest first; the value never depends on the remarks.
-/
namespace ScriptGlue

inductive Level where
  | info
  | warn
  deriving DecidableEq, Repr

def Level.label : Level → String
  | info => "INFO"
  | warn => "WARN"

structure Remark where
  level : Level
  text : String
  deriving DecidableEq, Repr

/-- A value and the remarks made on the way to it. -/
structure Logged (α : Type) where
  value : α
  journal : List Remark := []
  deriving DecidableEq, Repr

namespace Logged

instance : Monad Logged where
  pure a := ⟨a, []⟩
  bind x f :=
    let y := f x.value
    ⟨y.value, x.journal ++ y.journal⟩

@[simp] theorem value_pure {α : Type} (a : α) : (pure a : Logged α).value = a := rfl

@[simp] theorem value_bind {α β : Type} (x : Logged α) (f : α → Logged β) :
    (x >>= f).value = (f x.value).value := rfl

@[simp] theorem journal_pure {α : Type} (a : α) : (pure a : Logged α).journal = [] := rfl

@[simp] theorem journal_bind {α β : Type} (x : Logged α) (f : α → Logged β) :
    (x >>= f).journal = x.journal ++ (f x.value).journal := rfl

/-- Remarks on something that works. -/
def info (text : String) : Logged Unit := ⟨(), [⟨.info, text⟩]⟩

/-- Remarks on something that needs a look. -/
def warn (text : String) : Logged Unit := ⟨(), [⟨.warn, text⟩]⟩

/-- Runs a computation on every member, in order. -/
def forEach {α β : Type} (f : α → Logged β) : List α → Logged (List β)
  | [] => pure []
  | a :: r => do
    let b ← f a
    let rest ← forEach f r
    return b :: rest

@[simp] theorem value_forEach {α β : Type} (f : α → Logged β) (l : List α) :
    (forEach f l).value = l.map fun a => (f a).value := by
  induction l with
  | nil => rfl
  | cons a r ih => simp [forEach, ih]

@[simp] theorem journal_forEach {α β : Type} (f : α → Logged β) (l : List α) :
    (forEach f l).journal = l.flatMap fun a => (f a).journal := by
  induction l with
  | nil => rfl
  | cons a r ih => simp [forEach, ih]

end Logged

end ScriptGlue
