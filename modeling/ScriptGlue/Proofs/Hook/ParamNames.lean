import Mathlib.Data.List.Nodup
import Mathlib.Data.List.Perm.Subperm
import ScriptGlue.Proofs.Access.Checked
import ScriptGlue.Proofs.Declaration.OneLine
import ScriptGlue.Proofs.Hook.Calls

/-!
# Names of hook parameters are told apart

Names of parameters are proposed from three sources that overlap, and a name that is in use already
is counted on until it is free. Counting ends, since there are more counters than names in use. The
names that come out differ from each other, from the hooked object and from all that a detour
declares around them.
-/
namespace ScriptGlue

open Checked.Step (loop loop_done loop_next)

namespace Hook

/-- A name with a number behind it. -/
def withNumber (base : String) (n : Nat) : String := s!"{base}{n}"

theorem toList_withNumber (base : String) (n : Nat) :
    (withNumber base n).toList = base.toList ++ Nat.toDigits 10 n := by
  simp [withNumber, toString]

theorem withNumber_injective (base : String) : Function.Injective (withNumber base) :=
  fun _ _ same => Text.append_repr_inj same

/-! ### Counting on -/

/-- The name that comes of a proposed one behind names in use: itself if it is free, else the one
with the least counter that is. -/
inductive IsApart (used : List String) (base : String) : String → Prop
  | kept (free : base ∉ used) : IsApart used base base
  | counted {n : Nat} (taken : base ∈ used) (counter : 2 ≤ n) (free : withNumber base n ∉ used)
      (least : ∀ m, 2 ≤ m → m < n → withNumber base m ∈ used) :
      IsApart used base (withNumber base n)

variable {used : List String} {base : String}

theorem IsApart.not_mem {name : String} (apart : IsApart used base name) : name ∉ used := by
  cases apart with
  | kept free => exact free
  | counted _ _ free _ => exact free

/-- Names in use cannot take all counters up to one more than there are. -/
theorem exists_counter (used : List String) (base : String) :
    ∃ k < used.length + 1, withNumber base (k + 2) ∉ used := by
  by_contra none
  have taken : ∀ k < used.length + 1, withNumber base (k + 2) ∈ used := by
    intro k inside
    by_contra free
    exact none ⟨k, inside, free⟩
  have distinct : ((List.range (used.length + 1)).map fun k => withNumber base (k + 2)).Nodup :=
    List.Nodup.map (fun i j same => by simpa using withNumber_injective base same) List.nodup_range
  have within : (List.range (used.length + 1)).map (fun k => withNumber base (k + 2)) ⊆ used := by
    intro name member
    obtain ⟨k, inside, rfl⟩ := List.mem_map.mp member
    exact taken k (List.mem_range.mp inside)
  have fits := (List.subperm_of_subset distinct within).length_le
  rw [List.length_map, List.length_range] at fits
  omega

/-- The first of the counters from two on that gives a free name. -/
def freeCounter? (used : List String) (base : String) : Option Nat :=
  (List.range (used.length + 1)).find? fun k => !used.contains (withNumber base (k + 2))

theorem freshName_eq (taken : base ∈ used) :
    freshName used base =
      ((freeCounter? used base).map fun k => withNumber base (k + 2)).getD base := by
  have contained : used.contains base = true := by simpa using taken
  rw [freshName, if_pos contained]
  dsimp only
  rw [List.find?_map]
  rfl

theorem exists_freeCounter? (used : List String) (base : String) :
    ∃ k, freeCounter? used base = some k ∧ withNumber base (k + 2) ∉ used ∧
      ∀ j < k, withNumber base (j + 2) ∈ used := by
  obtain ⟨k, inside, free⟩ := exists_counter used base
  have some : (freeCounter? used base).isSome :=
    List.find?_isSome.mpr ⟨k, List.mem_range.mpr inside, by simpa using free⟩
  obtain ⟨k, found⟩ := Option.isSome_iff_exists.mp some
  obtain ⟨free, -, before⟩ := List.find?_range_eq_some.mp found
  exact ⟨k, found, by simpa using free, fun j less => by simpa using before j less⟩

theorem isApart_freshName (used : List String) (base : String) :
    IsApart used base (freshName used base) := by
  by_cases taken : base ∈ used
  · obtain ⟨k, found, free, before⟩ := exists_freeCounter? used base
    rw [freshName_eq taken, found, Option.map_some, Option.getD_some]
    refine .counted taken (Nat.le_add_left 2 k) free fun m two less => ?_
    have earlier := before (m - 2) (by omega)
    rwa [Nat.sub_add_cancel two] at earlier
  · have free : ¬ used.contains base = true := by simpa using taken
    rw [freshName, if_neg free]
    exact .kept taken

end Hook

/-! ### The loop -/

namespace ByPosition

open Hook

/-- Counts on while the name is in use. -/
def renameStep (used : List String) (base : String) : Checked.Step (Nat × String) String
  | (counter, name) =>
    if used.contains name then pure (.inl (counter + 1, withNumber base (counter + 1)))
    else pure (.inr name)

/-- The first name from a proposed one on that is not in use. -/
def rename (used : List String) (base : String) : Checked String :=
  loop (renameStep used base) (1, base)

def namesStep (key : String) (params : List ParamShape) :
    Checked.Step (Nat × List String × List String) (List String)
  | (index, used, names) =>
    if index < params.length then do
      let name ← rename used (proposedName key params index)
      return .inl (index + 1, used ++ [name], names ++ [name])
    else pure (.inr names)

/-- Names all parameters, one after the other. -/
def paramNames (key : String) (params : List ParamShape) : Checked (List String) :=
  loop (namesStep key params) (0, [thisName], [])

theorem renameStep_taken {used : List String} {base name : String} (counter : Nat)
    (taken : name ∈ used) : renameStep used base (counter, name) =
      pure (.inl (counter + 1, withNumber base (counter + 1))) :=
  if_pos (by simpa using taken)

theorem renameStep_free {used : List String} {base name : String} (counter : Nat)
    (free : name ∉ used) : renameStep used base (counter, name) = pure (.inr name) :=
  if_neg (by simpa using free)

/-- Counting ends at the name that is apart. -/
theorem rename_eq {used : List String} {base name : String} (apart : IsApart used base name) :
    rename used base = pure name := by
  cases apart with
  | kept free => exact loop_done (renameStep_free 1 free)
  | @counted n taken counter free least =>
    -- from each counter up to the free one, the loop goes on to the next
    have run (left m : Nat) (reaches : m + left = n) (two : 2 ≤ m) :
        loop (renameStep used base) (m, withNumber base m) = pure (withNumber base n) := by
      induction left generalizing m with
      | zero =>
        obtain rfl : m = n := reaches
        exact loop_done (renameStep_free m free)
      | succ left ih =>
        rw [loop_next (renameStep_taken m (least m two (by omega)))]
        exact ih (m + 1) (by omega) (by omega)
    rw [rename, loop_next (renameStep_taken 1 taken)]
    exact run (n - 2) 2 (by omega) (Nat.le_refl 2)

/-- From any place on, the loop names the parameters that are left as they are named all at once. -/
theorem namesStep_run (key : String) (params : List ParamShape) (left index : Nat)
    (used names : List String) (reaches : index + left = params.length) :
    loop (namesStep key params) (index, used, names) =
      pure (names ++
        distinctNames used ((List.range' index left).map (proposedName key params))) := by
  induction left generalizing index used names with
  | zero =>
    have ended : namesStep key params (index, used, names) = pure (.inr names) :=
      if_neg (by omega)
    rw [loop_done ended, List.range'_zero, List.map_nil, distinctNames, List.append_nil]
  | succ left ih =>
    have named := rename_eq (isApart_freshName used (proposedName key params index))
    have step : namesStep key params (index, used, names) =
        pure (.inl (index + 1, used ++ [freshName used (proposedName key params index)],
          names ++ [freshName used (proposedName key params index)])) := by
      rw [namesStep, if_pos (by omega), named, pure_bind]
    rw [loop_next step, ih _ _ _ (by omega), List.range'_succ, List.map_cons, distinctNames,
      List.append_assoc, List.singleton_append]

/-- The names are found by counting. -/
theorem paramNames_eq (key : String) (params : List ParamShape) :
    paramNames key params = pure (Hook.paramNames key params) := by
  rw [paramNames, namesStep_run key params params.length 0 _ _ (Nat.zero_add _), List.nil_append,
    Hook.paramNames, List.range_eq_range']

end ByPosition

namespace Hook

/-! ### Names behind names -/

theorem distinctNames_nodup (used names : List String) :
    (distinctNames used names).Nodup ∧ ∀ name ∈ distinctNames used names, name ∉ used := by
  induction names generalizing used with
  | nil => exact ⟨List.nodup_nil, fun _ member => absurd member List.not_mem_nil⟩
  | cons base r ih =>
    obtain ⟨distinct, later⟩ := ih (used ++ [freshName used base])
    rw [distinctNames]
    refine ⟨List.nodup_cons.mpr ⟨fun again => later _ again (by simp), distinct⟩, ?_⟩
    intro name member
    rcases List.mem_cons.mp member with rfl | member
    · exact (isApart_freshName used base).not_mem
    · exact fun inUse => later name member (List.mem_append_left _ inUse)

/-- Each name is apart from those in use and from those before it. -/
theorem isApart_distinctNames (used names : List String) (i : Nat) (inside : i < names.length) :
    ∃ name, (distinctNames used names)[i]? = some name ∧
      IsApart (used ++ (distinctNames used names).take i) names[i] name := by
  induction names generalizing used i with
  | nil => cases inside
  | cons base r ih =>
    rw [distinctNames]
    cases i with
    | zero =>
      refine ⟨freshName used base, rfl, ?_⟩
      rw [List.take_zero, List.append_nil]
      exact isApart_freshName used base
    | succ i =>
      obtain ⟨name, here, apart⟩ := ih (used ++ [freshName used base]) i (by simpa using inside)
      refine ⟨name, here, ?_⟩
      rwa [List.append_assoc, List.singleton_append] at apart

/-! ### Names of the detour -/

/-- The names that a detour declares for itself, be it in its head, by its macros, for the call of
the hooked function or for listeners. -/
def detourLocals : List String :=
  ["hook", "pthis", "out", "mgr", "ret", "origret", "retBuffer", "retVec", "origVec", "isolate",
    "locker", "isolateScope", "handleScope", "extraArgs", "orig", "OrigFunc", "retVal", "ctx", "ed"]

/-- A name that may stand beside those of a detour. -/
structure FitsDetour (name : String) : Prop where
  identifier : isIdentifier name = true
  free : name ∉ detourLocals

/-- Names that are not made up from numbers. -/
def givenNames : List String :=
  ["activator", "caller", "useType", "value", "inflictor", "attacker", "damage", "damageBits",
    "direction", "trace", "gibType", "amount", "name", "max", "score", "allowNegative", "player",
    "original", "itemInfo", "skipLocal", "weapon", "duration", "mode", "respawnTime", "vec",
    "other", "str"]

theorem fitsDetour_given {name : String} (given : name ∈ givenNames) : FitsDetour name := by
  have all : ∀ name ∈ givenNames, isIdentifier name = true ∧ name ∉ detourLocals := by decide
  exact ⟨(all name given).1, (all name given).2⟩

/-- No name of a detour ends in a digit. -/
theorem fitsDetour_withNumber {stem : String} (valid : isIdentifier stem = true) (n : Nat) :
    FitsDetour (withNumber stem n) where
  identifier := Declaration.isIdentifier_numbered valid n
  free := by
    have letters : ∀ l ∈ detourLocals, ∀ c ∈ l.toList.getLast?, c.isDigit = false := by decide
    intro isLocal
    obtain ⟨front, c, digits⟩ := List.eq_nil_or_concat (Nat.toDigits 10 n) |>.resolve_left
      Nat.toDigits_ne_nil
    have last : c ∈ (withNumber stem n).toList.getLast? := by
      rw [toList_withNumber, digits, List.concat_eq_append, ← List.append_assoc,
        List.getLast?_concat]
      rfl
    have member : c ∈ Nat.toDigits 10 n := by simp [digits]
    have digit : c.isDigit = true := Nat.isDigit_of_mem_toDigits (by decide) (by decide) member
    rw [letters _ isLocal c last] at digit
    cases digit

theorem chosenNames?_given {key : String} {names : List String}
    (chosen : chosenNames? key = some names) : ∀ name ∈ names, name ∈ givenNames := by
  unfold chosenNames? at chosen
  split at chosen <;> cases chosen <;> decide

theorem defaultName?_given {shape : ParamShape} {name : String}
    (default : shape.defaultName? = some name) : name ∈ givenNames := by
  cases shape <;> cases default <;> decide

/-- Every proposed name is given, or a number stands behind a stem. -/
theorem fitsDetour_proposedName (key : String) (params : List ParamShape) (index : Nat) :
    FitsDetour (proposedName key params index) := by
  have stem : isIdentifier "arg" = true := by decide
  have place : FitsDetour (placeName index) := fitsDetour_withNumber stem (index + 1)
  unfold proposedName
  split
  · rename_i name chosen
    obtain ⟨names, listed, at_⟩ := Option.bind_eq_some_iff.mp chosen
    exact fitsDetour_given (chosenNames?_given listed name (List.mem_of_getElem? at_))
  · split
    · exact place
    · split
      · exact place
      · rename_i base default
        have given := fitsDetour_given (defaultName?_given default)
        split
        · exact fitsDetour_withNumber given.identifier _
        · exact given

/-- Counting keeps a name fit. -/
theorem IsApart.fitsDetour {used : List String} {base name : String}
    (apart : IsApart used base name) (fits : FitsDetour base) : FitsDetour name := by
  cases apart with
  | kept => exact fits
  | counted => exact fitsDetour_withNumber fits.identifier _

/-! ### The names of a hook -/

variable (key : String) (params : List ParamShape)

theorem isApart_paramNames {i : Nat} (inside : i < params.length) :
    ∃ name, (paramNames key params)[i]? = some name ∧
      IsApart (thisName :: (paramNames key params).take i) (proposedName key params i) name := by
  have length : i < ((List.range params.length).map (proposedName key params)).length := by
    simpa using inside
  obtain ⟨name, here, apart⟩ := isApart_distinctNames [thisName] _ i length
  rw [List.getElem_map, List.getElem_range] at apart
  exact ⟨name, here, apart⟩

theorem fitsDetour_paramNames : ∀ name ∈ paramNames key params, FitsDetour name := by
  intro name member
  obtain ⟨i, at_⟩ := List.mem_iff_getElem?.mp member
  have inside : i < params.length := by
    rw [← length_paramNames key params]
    exact (List.getElem?_eq_some_iff.mp at_).1
  obtain ⟨name', here, apart⟩ := isApart_paramNames key params inside
  obtain rfl : name = name' := Option.some.inj (at_.symm.trans here)
  exact apart.fitsDetour (fitsDetour_proposedName key params i)

/-- The parameters of a hook are named once each, and clear of all names around them. -/
structure NamedApart : Prop where
  /-- The search for free names ends, with these names. -/
  ends : ByPosition.paramNames key params = pure (paramNames key params)
  length : (paramNames key params).length = params.length
  distinct : (thisName :: paramNames key params).Nodup
  /-- A name is the proposed one or that one with the least counter that sets it apart. -/
  each : ∀ i < params.length, ∃ name, (paramNames key params)[i]? = some name ∧
    IsApart (thisName :: (paramNames key params).take i) (proposedName key params i) name
  free : ∀ name ∈ paramNames key params, name ∉ detourLocals

/-- Whatever the key and the shapes of its parameters, their names are apart. -/
theorem named_apart : NamedApart key params where
  ends := ByPosition.paramNames_eq key params
  length := length_paramNames key params
  distinct := by
    obtain ⟨distinct, others⟩ := distinctNames_nodup [thisName]
      ((List.range params.length).map (proposedName key params))
    exact List.nodup_cons.mpr ⟨fun again => others _ again List.mem_cons_self, distinct⟩
  each := fun _ inside => isApart_paramNames key params inside
  free := fun name member => (fitsDetour_paramNames key params name member).free

/-- What counting makes of one name may be proposed for another, which is then counted on itself. -/
example : paramNames "touch" [.edict, .entvars, .entity, .entity] =
    ["other", "other2", "other1", "other22"] := by
  decide +kernel

end Hook

end ScriptGlue
