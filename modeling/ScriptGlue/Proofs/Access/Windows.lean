import ScriptGlue.Proofs.Access.Checked
import ScriptGlue.Source.Scanner

/-!
# Windows of tokens

Where readers look for a few tokens in a row, they move a window over all tokens and test each of
its members. This finds the first place that the tests hold from on.
-/
namespace ScriptGlue

open Checked (item range)
open Checked.Step (loop loop_done loop_next)

namespace ByPosition

/-- Whether the members of a window from an index on pass tests, one each. -/
def fits (window : List Token) : Nat → List (Token → Bool) → Checked Bool
  | _, [] => pure true
  | i, test :: tests => do
    if test (← item window i) then fits window (i + 1) tests else return false

/-- Tests the window at an index, and moves on if it does not fit. -/
def matchStep (tests : List (Token → Bool)) (tokens : List Token) (i : Nat) :
    Checked (Nat ⊕ Option Nat) :=
  if i + tests.length ≤ tokens.length then do
    let window ← range tokens i (i + tests.length)
    if ← fits window 0 tests then return .inr (some i) else return .inl (i + 1)
  else pure (.inr none)

/-- The index of the first window whose members pass tests, one each. -/
def firstMatch (tests : List (Token → Bool)) (tokens : List Token) : Checked (Option Nat) :=
  loop (matchStep tests tokens) 0

end ByPosition

/-- Whether tokens start with some that pass tests, one each. -/
def startsWith : List (Token → Bool) → List Token → Bool
  | [], _ => true
  | _ :: _, [] => false
  | test :: tests, t :: r => test t && startsWith tests r

/-- The first place from which on tokens pass tests. -/
def matchIndex (tests : List (Token → Bool)) : List Token → Option Nat
  | [] => none
  | t :: r => if startsWith tests (t :: r) then some 0 else (matchIndex tests r).map (· + 1)

section

variable {tests : List (Token → Bool)} {ts : List Token}

theorem startsWith_of_length_lt (short : ts.length < tests.length) :
    startsWith tests ts = false := by
  induction tests generalizing ts with
  | nil => cases short
  | cons test tests ih =>
    cases ts with
    | nil => rfl
    | cons t r =>
      simp only [List.length_cons, Nat.add_lt_add_iff_right] at short
      rw [startsWith, ih short, Bool.and_false]

theorem startsWith_take (tests : List (Token → Bool)) (ts : List Token) :
    startsWith tests (ts.take tests.length) = startsWith tests ts := by
  induction tests generalizing ts with
  | nil => rfl
  | cons test tests ih =>
    cases ts with
    | nil => rfl
    | cons t r => rw [List.length_cons, List.take_succ_cons, startsWith, startsWith, ih]

theorem matchIndex_of_length_lt (short : ts.length < tests.length) :
    matchIndex tests ts = none := by
  induction ts with
  | nil => rfl
  | cons t r ih =>
    rw [matchIndex, startsWith_of_length_lt short, if_neg (by decide),
      ih (Nat.lt_of_succ_lt short)]
    rfl

theorem matchIndex_of_startsWith {t : Token} (starts : startsWith tests (t :: ts) = true) :
    matchIndex tests (t :: ts) = some 0 := by
  rw [matchIndex, if_pos starts]

theorem matchIndex_cons {t : Token} (fails : startsWith tests (t :: ts) = false) :
    matchIndex tests (t :: ts) = (matchIndex tests ts).map (· + 1) := by
  rw [matchIndex.eq_def]
  simp only [fails]
  rfl

/-- What a search that goes on until the tests hold finds is found from the first match on. -/
theorem eq_matchIndex {α : Type} (search found : List Token → Option α) (empty : search [] = none)
    (step : ∀ t r, search (t :: r) =
      if startsWith tests (t :: r) then found (t :: r) else search r) (ts : List Token) :
    search ts = (matchIndex tests ts).bind fun i => found (ts.drop i) := by
  induction ts with
  | nil => exact empty
  | cons t r ih =>
    rw [step]
    by_cases starts : startsWith tests (t :: r) = true
    · rw [if_pos starts, matchIndex_of_startsWith starts]
      rfl
    · rw [if_neg starts, ih, matchIndex_cons (Bool.eq_false_iff.mpr starts), Option.bind_map]
      rfl

/-- A last token that passes no test does not matter. -/
theorem startsWith_concat {last : Token} (fails : ∀ test ∈ tests, test last = false)
    (ts : List Token) : startsWith tests (ts ++ [last]) = startsWith tests ts := by
  induction tests generalizing ts with
  | nil => rfl
  | cons test tests ih =>
    cases ts with
    | nil =>
      rw [List.nil_append, startsWith.eq_def]
      simp only [fails test List.mem_cons_self, Bool.false_and, startsWith]
    | cons t r =>
      rw [List.cons_append, startsWith, startsWith,
        ih (fun other member => fails other (List.mem_cons_of_mem _ member))]

/-- A last token that no test accepts changes nothing about where a window fits. -/
theorem matchIndex_concat {last : Token} (filled : tests ≠ [])
    (fails : ∀ test ∈ tests, test last = false) (ts : List Token) :
    matchIndex tests (ts ++ [last]) = matchIndex tests ts := by
  induction ts with
  | nil =>
    obtain ⟨test, others, rfl⟩ := List.exists_cons_of_ne_nil filled
    simp only [List.nil_append, matchIndex, startsWith, fails test List.mem_cons_self]
    rfl
  | cons t r ih =>
    have same := startsWith_concat fails (t :: r)
    rw [List.cons_append] at same
    rw [List.cons_append, matchIndex, same, ih, matchIndex]

/-- The mark of the end is part of no match. -/
theorem matchIndex_all (filled : tests ≠ [])
    (fails : ∀ test ∈ tests, ∀ stop, test ⟨.stop, stop⟩ = false) (s : Token.Stream) :
    matchIndex tests s.all = matchIndex tests s.tokens :=
  matchIndex_concat filled (fun test member => fails test member s.stop) s.tokens

/-- A match lies inside. -/
theorem le_length_of_startsWith (starts : startsWith tests ts = true) :
    tests.length ≤ ts.length := by
  refine Nat.le_of_not_lt fun short => ?_
  rw [startsWith_of_length_lt short] at starts
  cases starts

theorem startsWith_of_matchIndex {i : Nat} (found : matchIndex tests ts = some i) :
    startsWith tests (ts.drop i) = true := by
  induction ts generalizing i with
  | nil => cases found
  | cons t r ih =>
    rw [matchIndex] at found
    split at found
    · obtain rfl := Option.some.inj found
      assumption
    · obtain ⟨j, later, rfl⟩ := Option.map_eq_some_iff.mp found
      exact ih later

theorem matchIndex_le (filled : tests ≠ []) {i : Nat} (found : matchIndex tests ts = some i) :
    i + tests.length ≤ ts.length := by
  have inside := le_length_of_startsWith (startsWith_of_matchIndex found)
  have width := List.length_pos_iff.mpr filled
  rw [List.length_drop] at inside
  omega

end

namespace ByPosition

variable {tests : List (Token → Bool)}

theorem fits_eq (window : List Token) (i : Nat) (inside : i + tests.length ≤ window.length) :
    fits window i tests = pure (startsWith tests (window.drop i)) := by
  induction tests generalizing i with
  | nil => rfl
  | cons test tests ih =>
    simp only [List.length_cons] at inside
    have here : i < window.length := by omega
    have next := ih (i + 1) (by omega)
    rw [fits, Checked.item_eq (List.getElem?_eq_getElem here), pure_bind,
      List.drop_eq_getElem_cons here, startsWith]
    by_cases holds : test window[i] = true
    · rw [if_pos holds, next, holds, Bool.true_and]
    · rw [if_neg holds, Bool.eq_false_iff.mpr holds]
      rfl

/-- A window tells whether the tokens behind an index pass the tests. -/
theorem exists_window {tokens : List Token} {i : Nat} (inside : i + tests.length ≤ tokens.length) :
    ∃ window, range tokens i (i + tests.length) = pure window ∧
      fits window 0 tests = pure (startsWith tests (tokens.drop i)) := by
  refine ⟨_, Checked.range_eq (Nat.le_add_right _ _) inside, ?_⟩
  rw [Nat.add_sub_cancel_left, fits_eq _ 0 (by rw [List.length_take, List.length_drop]; omega),
    List.drop_zero, startsWith_take]

/-- A window that fits is found. One that does not is passed as long as there is room for the next.
-/
theorem matchStep_eq {tokens r : List Token} {t : Token} {i : Nat}
    (here : tokens.drop i = t :: r) : matchStep tests tokens i =
      if startsWith tests (t :: r) then pure (.inr (some i))
      else if tests.length ≤ (t :: r).length then pure (.inl (i + 1)) else pure (.inr none) := by
  have length := congrArg List.length here
  have nonempty : 0 < (t :: r).length := Nat.succ_pos _
  rw [List.length_drop] at length
  by_cases inside : tests.length ≤ (t :: r).length
  · obtain ⟨window, cut, tested⟩ : ∃ window, range tokens i (i + tests.length) = pure window ∧ _ :=
      exists_window (by omega)
    rw [here] at tested
    rw [matchStep, if_pos (by omega), cut, pure_bind, tested, pure_bind, if_pos inside]
  · rw [matchStep, if_neg (by omega), startsWith_of_length_lt (Nat.lt_of_not_le inside),
      if_neg (by decide), if_neg inside]

/-- Moving a window finds the first match. -/
theorem firstMatch_eq (filled : tests ≠ []) (tokens : List Token) :
    firstMatch tests tokens = pure (matchIndex tests tokens) := by
  have ahead (left : List Token) (i : Nat) (here : tokens.drop i = left) :
      loop (matchStep tests tokens) i = pure ((matchIndex tests left).map (· + i)) := by
    induction left generalizing i with
    | nil =>
      have behind := List.drop_eq_nil_iff.mp here
      have width := List.length_pos_iff.mpr filled
      exact loop_done (if_neg (by omega))
    | cons t r ih =>
      have step : matchStep tests tokens i = _ := matchStep_eq here
      by_cases starts : startsWith tests (t :: r) = true
      · rw [if_pos starts] at step
        rw [loop_done step, matchIndex, if_pos starts, Option.map_some, Nat.zero_add]
      · rw [if_neg starts] at step
        by_cases inside : tests.length ≤ (t :: r).length
        · rw [if_pos inside] at step
          have behind : tokens.drop (i + 1) = r := by
            rw [← List.drop_drop, here]
            rfl
          rw [loop_next step, ih (i + 1) behind, matchIndex, if_neg starts, Option.map_map]
          congr 2
          funext j
          simp only [Function.comp_apply]
          omega
        · -- the window reaches the end before all tests have a token
          rw [if_neg inside] at step
          rw [loop_done step, matchIndex_of_length_lt (Nat.lt_of_not_le inside)]
          rfl
  have found := ahead tokens 0 rfl
  simp only [Nat.add_zero, Option.map_id'] at found
  exact found

end ByPosition

end ScriptGlue
