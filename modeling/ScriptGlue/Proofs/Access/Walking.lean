import ScriptGlue.Proofs.Access.Checked
import ScriptGlue.Proofs.Source.Reader

/-!
# Reading by position

A reader takes tokens off the front of a stream. By position, it moves an index over all tokens, of
which the last is the mark of the end; the index never passes that mark. Where the index stands at
what is left of the stream, both take the same tokens.
-/
namespace ScriptGlue

open Checked (item range minus)

/-- A reader that moves an index over tokens. -/
def Walker (α : Type) : Type := Nat → Checked (Except Fault (α × Nat))

namespace Walker

variable {α β σ : Type}

instance : Monad Walker where
  pure a := fun pos => pure (.ok (a, pos))
  bind w f := fun pos => do
    match ← w pos with
    | .ok (a, next) => f a next
    | .error fault => return .error fault

def fail (fault : Fault) : Walker α := fun _ => pure (.error fault)

def check (x : Checked α) : Walker α := fun pos => do return .ok (← x, pos)

def position : Walker Nat := fun pos => pure (.ok (pos, pos))

def moveTo (pos : Nat) : Walker Unit := fun _ => pure (.ok ((), pos))

/-- Repeats a step until it gives a result. -/
def loop (step : σ → Walker (σ ⊕ α)) (s : σ) : Walker α := fun pos =>
  Checked.Step.loop (fun (s, pos) => do
    match ← step s pos with
    | .ok (.inl t, next) => return .inl (t, next)
    | .ok (.inr a, next) => return .inr (.ok (a, next))
    | .error fault => return .inr (.error fault)) (s, pos)

section

variable (tokens : List Token)

/-- The token at the index, or the last one. -/
def current : Walker Token := do check (item tokens (min (← position) (tokens.length - 1)))

/-- Takes the next token; the last one stays. -/
def advance : Walker Token := do
  let t ← current tokens
  let pos ← position
  let last ← check (minus tokens.length 1)
  moveTo (if pos < last then pos + 1 else pos)
  return t

def refuse (expected : String) (t : Token) : Walker α :=
  fail (.unexpectedToken expected t.kind.describe t.span)

def expect (kind : Token.Kind) : Walker Token := do
  let t ← current tokens
  if t.kind = kind then advance tokens else refuse kind.describe t

def expectName : Walker String := do
  let t ← current tokens
  match t.name? with
  | some name => do
    let _ ← advance tokens
    return name
  | none => refuse "identifier" t

/-- Takes the next token if it is of the given kind, and tells whether it is. -/
def consume (kind : Token.Kind) : Walker Bool := do
  let t ← current tokens
  if t.kind = kind then
    let _ ← advance tokens
    return true
  else return false

/-- Takes the next token if it is of the given kind. -/
def skip (kind : Token.Kind) : Walker Unit := do let _ ← consume tokens kind

/-- Whether no token is left but the mark of the end. -/
def atEnd : Walker Bool := do return (← current tokens).kind = .stop

end

/-! ### Steps -/

section

variable {w : Walker α} {f : α → Walker β} {step : σ → Walker (σ ⊕ α)} {s t : σ} {a : α}
  {pos next : Nat} {fault : Fault}

theorem bind_ok (done : w pos = pure (.ok (a, next))) : (w >>= f) pos = f a next := by
  change (w pos >>= _) = _
  rw [done, pure_bind]

theorem bind_error (failed : w pos = pure (.error fault)) :
    (w >>= f) pos = pure (.error fault) := by
  change (w pos >>= _) = _
  rw [failed, pure_bind]

theorem bind_trap {trap : Trap} (stops : w pos = throw trap) : (w >>= f) pos = throw trap := by
  change (w pos >>= _) = _
  rw [stops]
  rfl

theorem check_eq {x : Checked α} (done : x = pure a) : check x pos = pure (.ok (a, pos)) := by
  rw [check, done, pure_bind]

theorem check_trap {x : Checked α} {trap : Trap} (stops : x = throw trap) :
    check x pos = throw trap := by
  rw [check, stops]
  rfl

theorem loop_done (done : step s pos = pure (.ok (.inr a, next))) :
    loop step s pos = pure (.ok (a, next)) :=
  Checked.Step.loop_done (by simp only [done, pure_bind])

theorem loop_next (done : step s pos = pure (.ok (.inl t, next))) :
    loop step s pos = loop step t next :=
  Checked.Step.loop_next (by simp only [done, pure_bind])

theorem loop_error (failed : step s pos = pure (.error fault)) :
    loop step s pos = pure (.error fault) :=
  Checked.Step.loop_done (by simp only [failed, pure_bind])

theorem loop_trap {trap : Trap} (stops : step s pos = throw trap) :
    loop step s pos = throw trap :=
  Checked.Step.loop_trap (by simp only [stops]; rfl)

end

end Walker

/-! ### Places in a stream -/

/-- The index stands at what is left of a stream. -/
structure Token.Stream.StandsAt (s : Token.Stream) (tokens : List Token) (pos : Nat) : Prop where
  left : tokens.drop pos = s.all

namespace Token.Stream

theorem StandsAt.first (s : Stream) : s.StandsAt s.all 0 := ⟨rfl⟩

namespace StandsAt

variable {s : Stream} {tokens : List Token} {pos : Nat} (stands : s.StandsAt tokens pos)
include stands

theorem length_eq : tokens.length = pos + (s.tokens.length + 1) := by
  have left := congrArg List.length stands.left
  rw [List.length_drop, all, List.length_append, List.length_singleton] at left
  omega

theorem item_eq : item tokens pos = pure s.current := by
  refine Checked.item_eq ?_
  rw [← List.head?_drop, stands.left, all, current]
  cases s.tokens <;> rfl

theorem current_eq : Walker.current tokens pos = pure (.ok (s.current, pos)) := by
  have length := stands.length_eq
  have inside : min pos (tokens.length - 1) = pos := by omega
  rw [Walker.current, Walker.bind_ok (by rfl), inside]
  exact Walker.check_eq stands.item_eq

/-- The next token is taken, and the index stands behind it. -/
theorem advance_eq : ∃ next, s.tail.StandsAt tokens next ∧
    Walker.advance tokens pos = pure (.ok (s.current, next)) := by
  have length := stands.length_eq
  have last : Checked.minus tokens.length 1 = pure (tokens.length - 1) :=
    Checked.minus_eq (by omega)
  rw [Walker.advance, Walker.bind_ok stands.current_eq, Walker.bind_ok (by rfl),
    Walker.bind_ok (Walker.check_eq last)]
  obtain ⟨ts, stop⟩ := s
  cases ts with
  | nil =>
    rw [if_neg (by simp only [List.length_nil] at length; omega)]
    exact ⟨pos, stands, rfl⟩
  | cons t r =>
    rw [if_pos (by simp only [List.length_cons] at length; omega)]
    refine ⟨pos + 1, ⟨?_⟩, rfl⟩
    rw [← List.drop_drop, stands.left]
    rfl

/-- A token of the kind is taken. -/
theorem consume_eq {kind : Token.Kind} (same : s.current.kind = kind) :
    ∃ next, s.tail.StandsAt tokens next ∧
      Walker.consume tokens kind pos = pure (.ok (true, next)) := by
  obtain ⟨next, behind, taken⟩ := stands.advance_eq
  refine ⟨next, behind, ?_⟩
  rw [Walker.consume, Walker.bind_ok stands.current_eq, if_pos same, Walker.bind_ok taken]
  rfl

/-- Another token is not. -/
theorem consume_other {kind : Token.Kind} (other : s.current.kind ≠ kind) :
    Walker.consume tokens kind pos = pure (.ok (false, pos)) := by
  rw [Walker.consume, Walker.bind_ok stands.current_eq, if_neg other]
  rfl

theorem atEnd_eq :
    Walker.atEnd tokens pos = pure (.ok (decide (s.current.kind = .stop), pos)) := by
  rw [Walker.atEnd, Walker.bind_ok stands.current_eq]
  rfl

end StandsAt

/-- An index that is moved forwards stands at what is left behind it. -/
theorem standsAt_drop (s : Stream) {n : Nat} (inside : n ≤ s.tokens.length) :
    StandsAt { s with tokens := s.tokens.drop n } s.all n :=
  ⟨List.drop_append_of_le_length inside⟩

/-- What is left of a stream is the end of it. -/
theorem suffix_of_standsAt {s t : Stream} {pos : Nat} (stands : t.StandsAt s.all pos) :
    t.tokens <:+ s.tokens := by
  have length := stands.length_eq
  have left := stands.left
  simp only [all, List.length_append, List.length_singleton] at length left
  rw [List.drop_append_of_le_length (by omega)] at left
  rw [← (List.append_inj' left rfl).1]
  exact List.drop_suffix pos s.tokens

theorem mem_of_standsAt {s t : Stream} {pos : Nat} (stands : t.StandsAt s.all pos) {u : Token}
    (member : u ∈ t.tokens) : u ∈ s.tokens :=
  (suffix_of_standsAt stands).subset member

end Token.Stream

/-! ### Walkers and readers -/

/-- What a walker does where its index stands at a stream: it fails as the reader does, or it gives
the same value, and stands at what the reader leaves. -/
inductive Follows (tokens : List Token) {α : Type} :
    Checked (Except Fault (α × Nat)) → Except Fault (α × Token.Stream) → Prop
  | takes {pos : Nat} {s : Token.Stream} (a : α) (stands : s.StandsAt tokens pos) :
    Follows tokens (pure (.ok (a, pos))) (.ok (a, s))
  | fails (fault : Fault) : Follows tokens (pure (.error fault)) (.error fault)

namespace Follows

variable {tokens : List Token} {α : Type} {x : Checked (Except Fault (α × Nat))}

theorem ok {a : α} {s : Token.Stream} (follows : Follows tokens x (.ok (a, s))) :
    ∃ pos, s.StandsAt tokens pos ∧ x = Pure.pure (.ok (a, pos)) := by
  cases follows with
  | takes _ stands => exact ⟨_, stands, rfl⟩

theorem error {fault : Fault} (follows : Follows tokens x (.error fault)) :
    x = Pure.pure (.error fault) := by
  cases follows with
  | fails => rfl

end Follows

/-- A walker does what a reader does. -/
def Tracks (tokens : List Token) {α : Type} (w : Walker α) (p : Reader α) : Prop :=
  ∀ ⦃pos : Nat⦄ ⦃s : Token.Stream⦄, s.StandsAt tokens pos → Follows tokens (w pos) (p s)

/-- The value or the fault that a walk comes to. -/
def Yields {α : Type} (x : Checked (Except Fault (α × Nat))) (y : Except Fault α) : Prop :=
  ∃ out, x = pure out ∧ out.map Prod.fst = y

namespace Tracks

variable {tokens : List Token} {α β : Type}

theorem pure (a : α) : Tracks tokens (Pure.pure a : Walker α) (Pure.pure a) :=
  fun _ _ stands => .takes a stands

theorem refuse (expected : String) (t : Token) :
    Tracks tokens (Walker.refuse expected t : Walker α) (Reader.refuse expected t) :=
  fun _ _ _ => .fails _

theorem current : Tracks tokens (Walker.current tokens) Reader.peek := by
  intro pos s stands
  rw [stands.current_eq]
  exact .takes _ stands

theorem advance : Tracks tokens (Walker.advance tokens) Reader.advance := by
  intro pos s stands
  obtain ⟨next, behind, taken⟩ := stands.advance_eq
  rw [taken]
  exact .takes _ behind

theorem bind {w : Walker α} {p : Reader α} {f : α → Walker β} {g : α → Reader β}
    (first : Tracks tokens w p) (later : ∀ a, Tracks tokens (f a) (g a)) :
    Tracks tokens (w >>= f) (p >>= g) := by
  intro pos s stands
  have here := first stands
  generalize walked : w pos = x, read : p s = y at here
  cases here with
  | takes a behind =>
    rw [Walker.bind_ok walked, Reader.bind_eq read]
    exact later a behind
  | fails fault =>
    have stops : (p >>= g) s = .error fault := by
      simp only [Bind.bind, StateT.bind, read, Except.bind]
    rw [Walker.bind_error walked, stops]
    exact .fails fault

theorem ite {c : Prop} [Decidable c] {w v : Walker α} {p q : Reader α}
    (yes : c → Tracks tokens w p) (no : ¬ c → Tracks tokens v q) :
    Tracks tokens (if c then w else v) (if c then p else q) := by
  split
  · exact yes ‹_›
  · exact no ‹_›

theorem expect (kind : Token.Kind) :
    Tracks tokens (Walker.expect tokens kind) (Reader.expect kind) :=
  current.bind fun t => ite (fun _ => advance) fun _ => refuse kind.describe t

theorem expectName : Tracks tokens (Walker.expectName tokens) Reader.expectName := by
  refine current.bind fun t => ?_
  cases t.name? with
  | some name => exact advance.bind fun _ => pure name
  | none => exact refuse "identifier" t

/-- What is done if a token is taken, and what if it is not. -/
theorem consume {kind : Token.Kind} {f : Bool → Walker α} {p q : Reader α}
    (yes : Tracks tokens (f true) p) (no : Tracks tokens (f false) q) :
    Tracks tokens (Walker.consume tokens kind >>= f) (do
      let t ← Reader.peek
      if t.kind = kind then
        let _ ← Reader.advance
        p
      else q) := by
  intro pos s stands
  rw [Reader.bind_eq (Reader.peek_eq s)]
  by_cases same : s.current.kind = kind
  · obtain ⟨next, behind, taken⟩ := stands.consume_eq same
    have read : Reader.advance s = .ok (s.current, s.tail) := rfl
    rw [Walker.bind_ok taken, if_pos same, Reader.bind_eq read]
    exact yes behind
  · rw [Walker.bind_ok (stands.consume_other same), if_neg same]
    exact no stands

theorem skip (kind : Token.Kind) :
    Tracks tokens (Walker.skip tokens kind) (Reader.skip kind) :=
  consume (pure ()) (pure ())

/-- What a reader leaves that a walker follows is the end of what it is given. -/
theorem suffix {w : Walker α} {p : Reader α} {s t : Token.Stream} {a : α}
    (tracks : Tracks s.all w p) (done : p s = .ok (a, t)) : t.tokens <:+ s.tokens := by
  have follows := tracks (Token.Stream.StandsAt.first s)
  rw [done] at follows
  obtain ⟨pos, stands, -⟩ := follows.ok
  exact Token.Stream.suffix_of_standsAt stands

/-- A walk that goes on as the reader does comes to the same end. -/
theorem yields {w : Walker α} {p : Reader α} {f : α → Walker β} {g : α → Reader β}
    (first : Tracks tokens w p) {pos : Nat} {s : Token.Stream} (stands : s.StandsAt tokens pos)
    (later : ∀ a, ∀ ⦃next : Nat⦄ ⦃t : Token.Stream⦄, t.StandsAt tokens next →
      Yields (f a next) (((g a) t).map Prod.fst)) :
    Yields ((w >>= f) pos) (((p >>= g) s).map Prod.fst) := by
  have here := first stands
  generalize walked : w pos = x, read : p s = y at here
  cases here with
  | takes a behind =>
    rw [Walker.bind_ok walked, Reader.bind_eq read]
    exact later a behind
  | fails fault =>
    have stops : (p >>= g) s = .error fault := by
      simp only [Bind.bind, StateT.bind, read, Except.bind]
    rw [Walker.bind_error walked, stops]
    exact ⟨.error fault, rfl, rfl⟩

end Tracks

end ScriptGlue
