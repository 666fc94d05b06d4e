import Mathlib.Data.List.Infix
import Mathlib.Data.Nat.Find
import ScriptGlue.Proofs.Source.Reader

/-!
# Matching marks

Parentheses and braces match in a row of tokens if no prefix closes more of them than it opens and
the whole closes as many as it opens. Read backwards, the marks change their parts, so the mark that
opens a block is found from its end as the one that closes it is found from its start.
-/
namespace ScriptGlue

open Token (Kind)

/-- Marks of two kinds match in a row before which `depth` of them are open: no prefix closes more
than are open, and the whole leaves none open. -/
structure Matched (opener closer : Kind) (depth : Nat) (ks : List Kind) : Prop where
  within : ∀ front, front <+: ks → front.count closer ≤ front.count opener + depth
  closed : ks.count closer = ks.count opener + depth

/-- A property of what follows a place holds at this place and at none before it. -/
def FirstAt (p : List Kind → Prop) (ks : List Kind) (i : Nat) : Prop :=
  p (ks.drop i) ∧ ∀ j < i, ¬ p (ks.drop j)

theorem FirstAt.zero_iff {p : List Kind → Prop} {ks : List Kind} : FirstAt p ks 0 ↔ p ks := by
  rw [FirstAt, List.drop_zero]
  exact and_iff_left fun j before => absurd before (Nat.not_lt_zero j)

theorem FirstAt.succ_iff {p : List Kind → Prop} {k : Kind} {ks : List Kind} {i : Nat} :
    FirstAt p (k :: ks) (i + 1) ↔ ¬ p (k :: ks) ∧ FirstAt p ks i := by
  constructor
  · rintro ⟨here, before⟩
    exact ⟨before 0 (Nat.zero_lt_succ i), here, fun j less => before (j + 1) (by omega)⟩
  · rintro ⟨now, here, before⟩
    refine ⟨here, fun j less => ?_⟩
    cases j with
    | zero => exact now
    | succ j => exact before j (by omega)

/-- What holds at some place holds at a first one. -/
theorem FirstAt.of_exists {p : List Kind → Prop} {ks : List Kind} (found : ∃ i, p (ks.drop i)) :
    ∃ i, FirstAt p ks i := by
  classical
  exact ⟨Nat.find found, Nat.find_spec found, fun _ before => Nat.find_min found before⟩

namespace Matched

variable {opener closer k : Kind} {depth : Nat} {ks : List Kind}

theorem nil_iff : Matched opener closer depth [] ↔ depth = 0 := by
  constructor
  · intro matched
    simpa using matched.closed.symm
  · rintro rfl
    exact ⟨fun front isPrefix => by simp [List.prefix_nil.mp isPrefix], rfl⟩

/-- A list is matched with a kind in front if its counts shift as the depth does. -/
theorem cons_of_counts {depth' : Nat}
    (same : ∀ front, (front.count closer ≤ front.count opener + depth' ↔
      (k :: front).count closer ≤ (k :: front).count opener + depth))
    (total : ks.count closer = ks.count opener + depth' ↔
      (k :: ks).count closer = (k :: ks).count opener + depth) :
    Matched opener closer depth (k :: ks) ↔ Matched opener closer depth' ks := by
  constructor
  · intro matched
    refine ⟨fun front isPrefix => (same front).mpr (matched.within _ ?_),
      total.mpr matched.closed⟩
    exact List.cons_prefix_cons.mpr ⟨rfl, isPrefix⟩
  · intro matched
    refine ⟨fun front isPrefix => ?_, total.mp matched.closed⟩
    rcases List.prefix_cons_iff.mp isPrefix with rfl | ⟨t, rfl, inner⟩
    · simp
    · exact (same t).mp (matched.within t inner)

theorem open_iff (apart : opener ≠ closer) :
    Matched opener closer depth (opener :: ks) ↔ Matched opener closer (depth + 1) ks := by
  have counts (front : List Kind) : (opener :: front).count closer = front.count closer ∧
      (opener :: front).count opener = front.count opener + 1 := by
    simp [apart]
  refine cons_of_counts (fun front => ?_) ?_
  · rw [(counts front).1, (counts front).2]
    omega
  · rw [(counts ks).1, (counts ks).2]
    omega

theorem close_iff (apart : opener ≠ closer) :
    Matched opener closer (depth + 1) (closer :: ks) ↔ Matched opener closer depth ks := by
  have counts (front : List Kind) : (closer :: front).count closer = front.count closer + 1 ∧
      (closer :: front).count opener = front.count opener := by
    simp [Ne.symm apart]
  refine cons_of_counts (fun front => ?_) ?_
  · rw [(counts front).1, (counts front).2]
    omega
  · rw [(counts ks).1, (counts ks).2]
    omega

/-- A mark cannot be closed where none is open. -/
theorem not_close (apart : opener ≠ closer) : ¬ Matched opener closer 0 (closer :: ks) := by
  intro matched
  have first := matched.within [closer] (List.prefix_append [closer] ks)
  simp [Ne.symm apart] at first

theorem other_iff (notOpener : k ≠ opener) (notCloser : k ≠ closer) :
    Matched opener closer depth (k :: ks) ↔ Matched opener closer depth ks := by
  refine cons_of_counts (fun front => ?_) ?_
  · rw [List.count_cons_of_ne notOpener, List.count_cons_of_ne notCloser]
  · rw [List.count_cons_of_ne notOpener, List.count_cons_of_ne notCloser]

/-- What matches forwards matches backwards, with the parts of the marks exchanged. -/
theorem reverse (matched : Matched opener closer 0 ks) : Matched closer opener 0 ks.reverse where
  within front isPrefix := by
    have isSuffix := List.reverse_suffix.mpr isPrefix
    rw [List.reverse_reverse] at isSuffix
    obtain ⟨back, whole⟩ := isSuffix
    have before := matched.within back ⟨front.reverse, whole⟩
    have closed := matched.closed
    rw [← whole] at closed
    simp only [List.count_append, List.count_reverse] at closed
    omega
  closed := by
    have closed := matched.closed
    simp only [List.count_reverse]
    omega

theorem reverse_iff : Matched closer opener 0 ks.reverse ↔ Matched opener closer 0 ks :=
  ⟨fun matched => by simpa using matched.reverse, reverse⟩

end Matched

end ScriptGlue
