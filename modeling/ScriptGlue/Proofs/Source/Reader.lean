import ScriptGlue.Source.Reader

/-!
# Steps of readers

A reader in steps runs one step after the other. What each step takes is told in both directions:
from the tokens in front of it, and from its success.
-/
namespace ScriptGlue

theorem Token.Kind.name?_eq_some_iff {k : Token.Kind} {name : String} :
    k.name? = some name ↔ k = .ident name := by
  cases k <;> simp [Kind.name?]

theorem Token.name?_eq_some_iff {t : Token} {name : String} :
    t.name? = some name ↔ t.kind = .ident name := Kind.name?_eq_some_iff

theorem Token.isNamed_iff {t : Token} {word : String} :
    t.isNamed word = true ↔ t.kind = .ident word := by
  rw [Token.isNamed, beq_iff_eq, Token.name?_eq_some_iff]

namespace Reader

variable {α β : Type} {p : Reader α} {s t : Token.Stream} {a : α}

/-- A step that succeeds hands over to the next one. -/
theorem bind_eq (done : p s = .ok (a, t)) (f : α → Reader β) : (p >>= f) s = f a t := by
  simp only [bind, StateT.bind, done, Except.bind]

/-- If all steps succeed then so does the first. -/
theorem bind_ok {f : α → Reader β} {result : β × Token.Stream} (done : (p >>= f) s = .ok result) :
    ∃ a t, p s = .ok (a, t) ∧ f a t = .ok result := by
  cases first : p s with
  | error fault =>
    simp only [bind, StateT.bind, first, Except.bind] at done
    cases done
  | ok taken =>
    obtain ⟨a, t⟩ := taken
    rw [bind_eq first] at done
    exact ⟨a, t, rfl, done⟩

theorem get_eq (s : Token.Stream) : (get : Reader Token.Stream) s = .ok (s, s) := rfl

theorem set_eq (s t : Token.Stream) : (set t : Reader Unit) s = .ok ((), t) := rfl

theorem peek_eq (s : Token.Stream) : peek s = .ok (s.current, s) := rfl

/-- A token in front is taken. -/
theorem advance_eq (first : Token) (r : List Token) (stop : Span) :
    advance ⟨first :: r, stop⟩ = .ok (first, ⟨r, stop⟩) := rfl

/-- A token that is taken stood in front, unless it is the mark of the end. -/
theorem advance_ok_iff {first : Token} (solid : first.kind ≠ .stop) :
    advance s = .ok (first, t) ↔ s = t.push first := by
  constructor
  · intro done
    obtain ⟨tokens, stop⟩ := s
    cases tokens with
    | nil =>
      cases done
      exact absurd rfl solid
    | cons u r =>
      cases done
      rfl
  · rintro rfl
    rfl

theorem expect_eq {kind : Token.Kind} {first : Token} (same : first.kind = kind) (r : List Token)
    (stop : Span) : expect kind ⟨first :: r, stop⟩ = .ok (first, ⟨r, stop⟩) := by
  have here : (Token.Stream.current ⟨first :: r, stop⟩).kind = kind := same
  rw [expect, bind_eq (peek_eq _), if_pos here]
  rfl

/-- A token of another kind is refused. -/
theorem expect_other {kind : Token.Kind} {first : Token} (other : first.kind ≠ kind)
    (r : List Token) (stop : Span) : expect kind ⟨first :: r, stop⟩ =
      .error (.unexpectedToken kind.describe first.kind.describe first.span) := by
  have here : (Token.Stream.current ⟨first :: r, stop⟩).kind ≠ kind := other
  rw [expect, bind_eq (peek_eq _), if_neg here]
  rfl

/-- A token of the kind is skipped. -/
theorem skip_eq {kind : Token.Kind} {t : Token} (same : t.kind = kind) (r : List Token)
    (stop : Span) : skip kind ⟨t :: r, stop⟩ = .ok ((), ⟨r, stop⟩) := by
  have here : (Token.Stream.current ⟨t :: r, stop⟩).kind = kind := same
  rw [skip, bind_eq (peek_eq _), if_pos here]
  rfl

/-- Another token is not. -/
theorem skip_other {kind : Token.Kind} {t : Token} (other : t.kind ≠ kind) (r : List Token)
    (stop : Span) : skip kind ⟨t :: r, stop⟩ = .ok ((), ⟨t :: r, stop⟩) := by
  have here : (Token.Stream.current ⟨t :: r, stop⟩).kind ≠ kind := other
  rw [skip, bind_eq (peek_eq _), if_neg here]
  rfl

/-- Skipping never fails. -/
theorem skip_ok (kind : Token.Kind) (s : Token.Stream) : ∃ t, skip kind s = .ok ((), t) := by
  rw [skip, bind_eq (peek_eq s)]
  split <;> exact ⟨_, rfl⟩

theorem expectName_eq {first : Token} {name : String} (named : first.kind = .ident name)
    (r : List Token) (stop : Span) : expectName ⟨first :: r, stop⟩ = .ok (name, ⟨r, stop⟩) := by
  have found : (Token.Stream.current ⟨first :: r, stop⟩).name? = some name :=
    Token.name?_eq_some_iff.mpr named
  rw [expectName, bind_eq (peek_eq _), found]
  rfl

/-- A token that is taken stood in front. -/
theorem expect_ok_iff {kind : Token.Kind} {first : Token} (solid : kind ≠ .stop) :
    expect kind s = .ok (first, t) ↔ s = t.push first ∧ first.kind = kind := by
  constructor
  · intro done
    obtain ⟨next, s1, looked, done⟩ := bind_ok done
    cases looked
    split at done
    · rename_i same
      cases done
      obtain ⟨tokens, stop⟩ := s
      cases tokens with
      | nil => exact absurd same.symm solid
      | cons u r => exact ⟨rfl, same⟩
    · cases done
  · rintro ⟨rfl, same⟩
    exact expect_eq same t.tokens t.stop

theorem expectName_ok_iff {name : String} :
    expectName s = .ok (name, t) ↔ ∃ first, s = t.push first ∧ first.kind = .ident name := by
  constructor
  · intro done
    obtain ⟨next, s1, looked, done⟩ := bind_ok done
    cases looked
    cases found : s.current.name? with
    | none =>
      rw [found] at done
      cases done
    | some word =>
      rw [found] at done
      cases done
      have named := Token.name?_eq_some_iff.mp found
      obtain ⟨tokens, stop⟩ := s
      cases tokens with
      | nil => cases named
      | cons u r => exact ⟨u, rfl, named⟩
  · rintro ⟨first, rfl, named⟩
    exact expectName_eq named t.tokens t.stop

end Reader

end ScriptGlue
