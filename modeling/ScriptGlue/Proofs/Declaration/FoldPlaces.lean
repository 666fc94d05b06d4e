import Mathlib.Data.List.Chain
import ScriptGlue.Proofs.Declaration.Folding
import ScriptGlue.Proofs.Text.Search

/-!
# Where folding folds

Folding walks the fixed arguments from the left and takes two steps at once past an array and its
length. Seen by places, an argument is absorbed exactly when the one before it can take it for its
length and is not absorbed itself. So in a chain of pointers whose names all speak of lengths every
other one is absorbed, and the kept ones stand, in order, at the places that are left.
-/
namespace ScriptGlue

/-- Whether a name spells `length`, in any letter case. -/
def SpellsLength (name : String) : Prop :=
  ∃ w, w <:+: name.toList ∧ w.map Char.toLower = "length".toList

theorem namesLength_iff {name : String} : namesLength name = true ↔ SpellsLength name :=
  Text.contains_lower_iff (by decide +kernel)

namespace Parameter

/-- Whether a parameter is an array that can take the next one for its length. -/
def CanAbsorb (p next : Parameter) : Prop :=
  isPointerType p.type = true ∧ isCharPointerType p.type = false ∧ SpellsLength next.name

theorem canAbsorb_iff {p next : Parameter} : p.CanAbsorb next ↔ foldsWith p next = true := by
  rw [CanAbsorb, foldsWith, Bool.and_eq_true, Bool.and_eq_true, Bool.not_eq_true',
    namesLength_iff, and_assoc]

end Parameter

/-- Whether the parameter at this place can absorb the one behind it. -/
def FoldsAt (ps : List Parameter) (n : Nat) : Prop :=
  ∃ p next, ps[n]? = some p ∧ ps[n + 1]? = some next ∧ p.CanAbsorb next

/-- Whether the parameter at this place is the length of the one before it. One that is absorbed
absorbs none. -/
def IsAbsorbed (ps : List Parameter) : Nat → Prop
  | 0 => False
  | n + 1 => ¬ IsAbsorbed ps n ∧ FoldsAt ps n

/-- Whether an argument is the parameter at this place, with the one behind it as its length if it
can absorb that. -/
def IsFoldedAt (ps : List Parameter) (n : Nat) (a : ScriptArg) : Prop :=
  ps[n]? = some a.param ∧ ∀ length, a.length = some length ↔
    ∃ next, ps[n + 1]? = some next ∧ a.param.CanAbsorb next ∧ next.name = length

/-- Folded arguments stand, in order, for the parameters at these places, which are all that are
not absorbed. -/
structure FoldedFrom (ps : List Parameter) (places : List Nat) (args : List ScriptArg) : Prop where
  ordered : places.Pairwise (· < ·)
  kept : ∀ n, n ∈ places ↔ n < ps.length ∧ ¬ IsAbsorbed ps n
  each : List.Forall₂ (IsFoldedAt ps) places args

section Shifting

variable {ps : List Parameter} {p next : Parameter}

/-- Behind a first parameter that stays alone all is as if it were not there. -/
theorem isAbsorbed_cons (alone : ¬ FoldsAt (p :: ps) 0) (n : Nat) :
    IsAbsorbed (p :: ps) (n + 1) ↔ IsAbsorbed ps n := by
  induction n with
  | zero => exact iff_of_false (fun absorbed => alone absorbed.2) id
  | succ n ih => rw [IsAbsorbed, ih]; rfl

/-- Behind a first pair that folds all is as if it were not there. -/
theorem isAbsorbed_cons_cons (folds : FoldsAt (p :: next :: ps) 0) (n : Nat) :
    IsAbsorbed (p :: next :: ps) (n + 2) ↔ IsAbsorbed ps n := by
  induction n with
  | zero => exact iff_of_false (fun absorbed => absorbed.1 ⟨id, folds⟩) id
  | succ n ih => rw [IsAbsorbed, ih]; rfl

theorem foldsAt_cons_cons_zero : FoldsAt (p :: next :: ps) 0 ↔ p.CanAbsorb next := by
  simp [FoldsAt]

theorem isFoldedAt_cons {n : Nat} {a : ScriptArg} :
    IsFoldedAt (p :: ps) (n + 1) a ↔ IsFoldedAt ps n a := by
  simp [IsFoldedAt]

theorem isFoldedAt_single (alone : ¬ FoldsAt (p :: ps) 0) :
    IsFoldedAt (p :: ps) 0 (.single p) := by
  refine ⟨rfl, fun length => iff_of_false (by simp) ?_⟩
  rintro ⟨next, behind, folds, -⟩
  exact alone ⟨p, next, rfl, behind, folds⟩

theorem isFoldedAt_array (folds : p.CanAbsorb next) :
    IsFoldedAt (p :: next :: ps) 0 (.array p next.name) := by
  refine ⟨rfl, fun length => ?_⟩
  simp [folds]

end Shifting

namespace FoldedFrom

variable {ps : List Parameter} {p next : Parameter} {places : List Nat} {args : List ScriptArg}

theorem nil : FoldedFrom [] [] [] where
  ordered := .nil
  kept n := by simp
  each := .nil

/-- A parameter that stays alone is put in front of what is folded from the rest. -/
theorem single (alone : ¬ FoldsAt (p :: ps) 0) (rest : FoldedFrom ps places args) :
    FoldedFrom (p :: ps) (0 :: places.map (· + 1)) (.single p :: args) where
  ordered := by
    refine List.pairwise_cons.mpr ⟨by simp, List.pairwise_map.mpr (rest.ordered.imp ?_)⟩
    exact fun less => Nat.succ_lt_succ less
  kept n := by
    cases n with
    | zero => simp [IsAbsorbed]
    | succ n => simp [isAbsorbed_cons alone, rest.kept]
  each := by
    refine .cons (isFoldedAt_single alone) (List.forall₂_map_left_iff.mpr (rest.each.imp ?_))
    exact fun n a => isFoldedAt_cons.mpr

/-- An array with its length is put in front of what is folded from the rest. -/
theorem array (folds : p.CanAbsorb next) (rest : FoldedFrom ps places args) :
    FoldedFrom (p :: next :: ps) (0 :: places.map (· + 2)) (.array p next.name :: args) where
  ordered := by
    refine List.pairwise_cons.mpr ⟨by simp, List.pairwise_map.mpr (rest.ordered.imp ?_)⟩
    exact fun less => Nat.add_lt_add_right less 2
  kept n := by
    have first : FoldsAt (p :: next :: ps) 0 := foldsAt_cons_cons_zero.mpr folds
    match n with
    | 0 => simp [IsAbsorbed]
    | 1 => simp [IsAbsorbed, first]
    | n + 2 => simp [isAbsorbed_cons_cons first, rest.kept]
  each := by
    refine .cons (isFoldedAt_array folds) (List.forall₂_map_left_iff.mpr (rest.each.imp ?_))
    exact fun n a folded => isFoldedAt_cons.mpr (isFoldedAt_cons.mpr folded)

end FoldedFrom

theorem exists_foldedFrom (ps : List Parameter) :
    ∃ places, FoldedFrom ps places (foldArgs ps) := by
  fun_induction foldArgs ps with
  | case1 => exact ⟨_, .nil⟩
  | case2 p => exact ⟨_, .single (by simp [FoldsAt]) .nil⟩
  | case3 p next r folds ih =>
    obtain ⟨places, rest⟩ := ih
    exact ⟨_, .array (Parameter.canAbsorb_iff.mpr folds) rest⟩
  | case4 p next r alone ih =>
    obtain ⟨places, rest⟩ := ih
    refine ⟨_, .single ?_ rest⟩
    rwa [foldsAt_cons_cons_zero, Parameter.canAbsorb_iff]

/-- Of three pointers that are named like lengths the second is absorbed, and so the third is not. -/
example :
    let p (name : String) : Parameter := ⟨name, "int *", none⟩
    foldArgs [p "aLength", p "bLength", p "cLength"] =
      [.array (p "aLength") "bLength", .single (p "cLength")] := by
  decide +kernel

/-- The first argument is the first parameter, folded or not. -/
theorem foldArgs_cons (p : Parameter) (ps : List Parameter) :
    ∃ a rest, foldArgs (p :: ps) = a :: rest ∧ a.param = p := by
  cases ps with
  | nil => exact ⟨_, _, rfl, rfl⟩
  | cons next r =>
    rw [foldArgs]
    split
    · exact ⟨_, _, rfl, rfl⟩
    · exact ⟨_, _, rfl, rfl⟩

/-- An argument is settled towards the next one if it has a length or cannot take that for one. -/
def ScriptArg.SettledBefore (a b : ScriptArg) : Prop :=
  a.length = none → ¬ a.param.CanAbsorb b.param

theorem foldArgs_settled (ps : List Parameter) :
    (foldArgs ps).IsChain ScriptArg.SettledBefore := by
  fun_induction foldArgs ps with
  | case1 => exact .nil
  | case2 p => exact .singleton _
  | case3 p next r _ ih =>
    refine ih.cons fun b _ unfolded => ?_
    cases unfolded
  | case4 p next r alone ih =>
    obtain ⟨a, rest, whole, own⟩ := foldArgs_cons next r
    rw [whole] at ih ⊢
    refine ih.cons_cons fun _ absorbs => alone ?_
    rw [own] at absorbs
    exact Parameter.canAbsorb_iff.mp absorbs

namespace Declaration

theorem isVariadic_iff {d : Declaration} : d.isVariadic = true ↔ .variadic ∈ d.args := by
  rw [isVariadic, List.any_eq_true]
  constructor
  · rintro ⟨a, member, variadic⟩
    cases a with
    | fixed p => cases variadic
    | variadic => exact member
  · exact fun member => ⟨_, member, rfl⟩

/-- What scripts see of the arguments of a function. -/
structure KeepsArguments (d : Declaration) : Prop where
  /-- Each argument with its length reads as the names of the fixed arguments. -/
  names : d.scriptArgs.flatMap ScriptArg.coveredNames = d.fixed.map (·.name)
  unchanged : (d.scriptArgs.map (·.param)).Sublist d.fixed
  /-- The kept arguments, the folded ones among them, by their places. -/
  placed : ∃ places, FoldedFrom d.fixed places d.scriptArgs
  /-- None that stayed alone is followed by one that it could absorb. -/
  settled : d.scriptArgs.IsChain ScriptArg.SettledBefore
  variadic : d.isVariadic = true ↔ .variadic ∈ d.args

/-- Every fixed argument is kept exactly once, either on its own or as a length. -/
theorem keepsArguments (d : Declaration) : d.KeepsArguments where
  names := foldArgs_coveredNames d.fixed
  unchanged := foldArgs_params_sublist d.fixed
  placed := exists_foldedFrom d.fixed
  settled := foldArgs_settled d.fixed
  variadic := isVariadic_iff

end Declaration

end ScriptGlue
