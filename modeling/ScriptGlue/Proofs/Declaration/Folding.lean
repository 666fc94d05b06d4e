import Mathlib.Data.List.Nodup
import ScriptGlue.Declaration.Folding

/-!
# What folding keeps

Folding walks the parameters once. Each is either kept, possibly with the name of its successor as
its length, or absorbed as the length of its predecessor. Nothing is lost and nothing is reordered,
so the kept parameters are a sublist of the declared ones and the names of both, read in turn, are
the declared names.
-/
namespace ScriptGlue

namespace ScriptArg

@[simp] theorem param_single (p : Parameter) : (single p).param = p := rfl

@[simp] theorem length_single (p : Parameter) : (single p).length = none := rfl

@[simp] theorem param_array (p : Parameter) (length : String) : (array p length).param = p := rfl

@[simp] theorem length_array (p : Parameter) (length : String) :
    (array p length).length = some length := rfl

/-- The names that an argument stands for: its own, then that of its length. -/
def coveredNames (a : ScriptArg) : List String := a.name :: a.length.toList

end ScriptArg

/-- Every parameter is covered by exactly one folded argument, in order. -/
theorem foldArgs_coveredNames (ps : List Parameter) :
    (foldArgs ps).flatMap ScriptArg.coveredNames = ps.map (·.name) := by
  fun_induction foldArgs ps with
  | case1 => rfl
  | case2 p => rfl
  | case3 p next r _ ih =>
    simp only [List.flatMap_cons, ih, ScriptArg.coveredNames, ScriptArg.name]
    simp
  | case4 p next r _ ih =>
    simp only [List.flatMap_cons, ih, ScriptArg.coveredNames, ScriptArg.name]
    simp

/-- Kept parameters stay as they are and in order. -/
theorem foldArgs_params_sublist (ps : List Parameter) :
    ((foldArgs ps).map (·.param)).Sublist ps := by
  fun_induction foldArgs ps with
  | case1 => exact List.Sublist.refl _
  | case2 p => exact List.Sublist.refl _
  | case3 p next r _ ih => exact (ih.cons next).cons_cons p
  | case4 p next r _ ih => exact ih.cons_cons p

/-- The name on the side of scripts depends on the declared name only. -/
theorem foldArgs_scriptName {ps : List Parameter} {a : ScriptArg} (member : a ∈ foldArgs ps) :
    a.scriptName = scriptSafeName a.name := by
  fun_induction foldArgs ps with
  | case1 => cases member
  | case2 p =>
    cases List.mem_singleton.mp member
    rfl
  | case3 p next r _ ih =>
    rcases List.mem_cons.mp member with rfl | rest
    · rfl
    · exact ih rest
  | case4 p next r _ ih =>
    rcases List.mem_cons.mp member with rfl | rest
    · rfl
    · exact ih rest

/-- An array that is folded has a type that folds. -/
theorem foldArgs_isPointer {ps : List Parameter} {a : ScriptArg} (member : a ∈ foldArgs ps)
    (folded : a.length.isSome) :
    isPointerType a.type = true ∧ isCharPointerType a.type = false := by
  fun_induction foldArgs ps with
  | case1 => cases member
  | case2 p =>
    cases List.mem_singleton.mp member
    simp at folded
  | case3 p next r folds ih =>
    rcases List.mem_cons.mp member with rfl | rest
    · simp only [foldsWith, Bool.and_eq_true, Bool.not_eq_true'] at folds
      exact folds.1
    · exact ih rest
  | case4 p next r _ ih =>
    rcases List.mem_cons.mp member with rfl | rest
    · simp at folded
    · exact ih rest

/-- A parameter that is not kept is the length of the one before it. -/
theorem foldArgs_kept_or_absorbed {ps : List Parameter} {p : Parameter} (member : p ∈ ps) :
    (∃ a ∈ foldArgs ps, a.param = p) ∨ ∃ a ∈ foldArgs ps, a.length = some p.name := by
  fun_induction foldArgs ps with
  | case1 => cases member
  | case2 q =>
    cases List.mem_singleton.mp member
    exact Or.inl ⟨_, List.mem_singleton_self _, rfl⟩
  | case3 q next r _ ih =>
    rcases List.mem_cons.mp member with rfl | member
    · exact Or.inl ⟨_, List.mem_cons_self, rfl⟩
    rcases List.mem_cons.mp member with rfl | member
    · exact Or.inr ⟨_, List.mem_cons_self, rfl⟩
    · rcases ih member with ⟨a, ha, same⟩ | ⟨a, ha, same⟩
      · exact Or.inl ⟨a, List.mem_cons_of_mem _ ha, same⟩
      · exact Or.inr ⟨a, List.mem_cons_of_mem _ ha, same⟩
  | case4 q next r _ ih =>
    rcases List.mem_cons.mp member with rfl | member
    · exact Or.inl ⟨_, List.mem_cons_self, rfl⟩
    · rcases ih member with ⟨a, ha, same⟩ | ⟨a, ha, same⟩
      · exact Or.inl ⟨a, List.mem_cons_of_mem _ ha, same⟩
      · exact Or.inr ⟨a, List.mem_cons_of_mem _ ha, same⟩

namespace Declaration

/-- No two typed arguments have the same name. -/
def DistinctNames (d : Declaration) : Prop := (d.fixed.map (·.name)).Nodup

instance (d : Declaration) : Decidable d.DistinctNames :=
  inferInstanceAs (Decidable (d.fixed.map (·.name)).Nodup)

theorem scriptArgs_param_mem {d : Declaration} {a : ScriptArg} (member : a ∈ d.scriptArgs) :
    a.param ∈ d.fixed :=
  (foldArgs_params_sublist d.fixed).subset (List.mem_map_of_mem member)

theorem DistinctNames.param_eq {d : Declaration} (distinct : d.DistinctNames) {p q : Parameter}
    (hp : p ∈ d.fixed) (hq : q ∈ d.fixed) (same : p.name = q.name) : p = q :=
  List.inj_on_of_nodup_map distinct hp hq same

theorem DistinctNames.scriptArgs_nodup {d : Declaration} (distinct : d.DistinctNames) :
    (d.scriptArgs.map (·.name)).Nodup := by
  have sub := (foldArgs_params_sublist d.fixed).map (·.name)
  rw [List.map_map] at sub
  exact List.Nodup.sublist sub distinct

end Declaration

end ScriptGlue
