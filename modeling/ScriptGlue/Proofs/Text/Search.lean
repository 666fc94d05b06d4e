import Mathlib.Data.List.Infix
import ScriptGlue.Text.Casing
import ScriptGlue.Text.Search

/-!
# Finding text in any letter case

An occurrence is a part of the text in one piece. Some letters come out of lowering from their own
two cases only. A pattern of such letters is found in a lowered text exactly where the text itself
spells it, whatever the case of each letter and whatever else lowering changes around it.
-/
namespace ScriptGlue.Text

theorem occursIn_iff {pat : List Char} (s : List Char) : occursIn pat s = true ↔ pat <:+: s := by
  induction s with
  | nil => rw [occursIn, List.isEmpty_iff, List.infix_nil]
  | cons c r ih =>
    rw [occursIn, Bool.or_eq_true, List.isPrefixOf_iff_prefix, ih, List.infix_cons_iff]

theorem contains_iff {s pat : String} : contains s pat = true ↔ pat.toList <:+: s.toList :=
  occursIn_iff s.toList

theorem startsWith_iff {s lead : String} : startsWith s lead = true ↔ ∃ rest, s = lead ++ rest := by
  rw [startsWith, List.isPrefixOf_iff_prefix]
  constructor
  · rintro ⟨r, whole⟩
    refine ⟨String.ofList r, String.toList_injective ?_⟩
    rw [String.toList_append, String.toList_ofList, whole]
  · rintro ⟨rest, rfl⟩
    rw [String.toList_append]
    exact List.prefix_append _ _

theorem startsWith_append (lead rest : String) : startsWith (lead ++ rest) lead = true :=
  startsWith_iff.mpr ⟨rest, rfl⟩

theorem dropLead?_append (lead s : String) : dropLead? lead (lead ++ s) = some s := by
  rw [dropLead?, if_pos (startsWith_append lead s), String.toList_append, List.drop_left,
    String.ofList_toList]

theorem dropLead?_eq_some_iff {lead s rest : String} :
    dropLead? lead s = some rest ↔ s = lead ++ rest := by
  constructor
  · intro dropped
    by_cases starts : startsWith s lead = true
    · obtain ⟨r, rfl⟩ := startsWith_iff.mp starts
      rw [dropLead?_append, Option.some.injEq] at dropped
      rw [dropped]
    · rw [dropLead?, if_neg starts] at dropped
      cases dropped
  · rintro rfl
    exact dropLead?_append lead rest

/-! ### Letters that lowering makes of their own two cases only -/

/-- Whether a pair of case tables has no image with the ASCII letter `d` in it, and no empty one. -/
def isApartFrom (special : List (Nat × List Nat)) (runs : List CaseRun) (d : Char) : Bool :=
  special.all (fun e => !e.2.isEmpty && !(e.2.map Char.ofNat).contains d) &&
    runs.all fun run => !run.covers ((d.toNat : Int) - run.shift).toNat

/-- Letters of which no character beyond ASCII has one in its lowercase image. -/
def isPlainLetter (d : Char) : Bool :=
  0 < d.toNat && d.toNat < 128 && isApartFrom lowerSpecial lowerRuns d

theorem toNat_of_ofNat_eq {n : Nat} {d : Char} (image : Char.ofNat n = d) (positive : 0 < d.toNat) :
    n = d.toNat := by
  by_cases valid : n.isValidChar
  · rw [← image, Char.ofNat, dif_pos valid]
    rfl
  · rw [Char.ofNat, dif_neg valid] at image
    exact absurd positive (image ▸ by decide)

/-- No change of case makes a character that the tables keep apart. -/
theorem caseImage_apart {special : List (Nat × List Nat)} {runs : List CaseRun} {c d : Char}
    (apart : isApartFrom special runs d = true) (positive : 0 < d.toNat) (other : c ≠ d) :
    caseImage special runs c ≠ [] ∧ d ∉ caseImage special runs c := by
  rw [isApartFrom, Bool.and_eq_true, List.all_eq_true, List.all_eq_true] at apart
  unfold caseImage
  split
  · rename_i image found
    obtain ⟨before, after, whole, -⟩ := List.lookup_eq_some_iff.mp found
    have listed := apart.1 (c.toNat, image) (by rw [whole]; simp)
    rw [Bool.and_eq_true, Bool.not_eq_true', Bool.not_eq_true', List.isEmpty_eq_false_iff] at listed
    exact ⟨by simpa using listed.1, by simpa using listed.2⟩
  · split
    · rename_i run found
      refine ⟨by simp, fun member => ?_⟩
      have point := toNat_of_ofNat_eq (List.mem_singleton.mp member).symm positive
      have same : ((d.toNat : Int) - run.shift).toNat = c.toNat := by omega
      have uncovered := apart.2 run (List.mem_of_find?_eq_some found)
      rw [same, List.find?_some found] at uncovered
      exact absurd uncovered (by decide)
    · exact ⟨by simp, by simpa using other.symm⟩

/-- What stands for one character in a lowered text. -/
inductive IsLowered (c : Char) : List Char → Prop where
  | own : IsLowered c [c.toLower]
  | foreign {block : List Char} (filled : block ≠ [])
      (apart : ∀ d, isPlainLetter d = true → d ≠ c.toLower ∧ d ∉ block) : IsLowered c block

theorem toLower_eq_self {c : Char} (beyond : ¬ c.toNat < 128) : c.toLower = c := by
  refine dif_neg fun upper => ?_
  have bound : c.toNat ≤ 90 := upper.2
  omega

theorem isLowered_lowerChar (c : Char) : IsLowered c (lowerChar c) := by
  rw [lowerChar]
  split
  · exact .own
  · rename_i beyond
    have plain : ∀ d, isPlainLetter d = true → d ≠ c ∧ 0 < d.toNat ∧
        isApartFrom lowerSpecial lowerRuns d = true := by
      intro d letter
      rw [isPlainLetter, Bool.and_eq_true, Bool.and_eq_true, decide_eq_true_eq,
        decide_eq_true_eq] at letter
      exact ⟨fun same => beyond (same ▸ letter.1.2), letter.1.1, letter.2⟩
    refine .foreign ?_ fun d letter => ?_
    · obtain ⟨other, positive, apart⟩ := plain 'l' (by decide)
      exact (caseImage_apart apart positive other.symm).1
    · obtain ⟨other, positive, apart⟩ := plain d letter
      exact ⟨by rwa [toLower_eq_self beyond], (caseImage_apart apart positive other.symm).2⟩

theorem exists_lowerAfter_cons (before : List Char) (c : Char) (r : List Char) :
    ∃ block, IsLowered c block ∧
      lowerAfter before (c :: r) = block ++ lowerAfter (c :: before) r := by
  rw [lowerAfter]
  refine ⟨_, ?_, rfl⟩
  split
  · rename_i sigma
    rw [beq_iff_eq.mp sigma]
    -- none of the three forms of sigma is an ASCII letter
    have ascii : ∀ d, isPlainLetter d = true → d.toNat < 128 := by
      intro d letter
      rw [isPlainLetter, Bool.and_eq_true, Bool.and_eq_true, decide_eq_true_eq,
        decide_eq_true_eq] at letter
      exact letter.1.2
    refine .foreign (by simp) fun d letter => ⟨?_, fun member => ?_⟩
    · rintro rfl
      exact absurd (ascii _ letter) (by decide)
    · have point := List.mem_singleton.mp member
      have bound := ascii d letter
      rw [point] at bound
      split at bound
      · exact absurd bound (by decide)
      · exact absurd bound (by decide)
  · exact isLowered_lowerChar c

/-! ### Patterns of such letters -/

variable {pat : List Char}

theorem prefix_lowerAfter_iff (plain : ∀ d ∈ pat, isPlainLetter d = true)
    (before s : List Char) : pat <+: lowerAfter before s ↔ pat <+: s.map Char.toLower := by
  induction s generalizing before pat with
  | nil => rfl
  | cons c r ih =>
    cases pat with
    | nil => simp
    | cons d pat =>
      obtain ⟨block, lowered, whole⟩ := exists_lowerAfter_cons before c r
      have letter := plain d List.mem_cons_self
      rw [whole, List.map_cons]
      cases lowered with
      | own =>
        rw [List.singleton_append, List.cons_prefix_cons, List.cons_prefix_cons,
          ih fun e member => plain e (List.mem_cons_of_mem _ member)]
      | foreign filled apart =>
        obtain ⟨head, tail, rfl⟩ := List.exists_cons_of_ne_nil filled
        have other : d ≠ head := fun same => (apart d letter).2 (same ▸ List.mem_cons_self)
        rw [List.cons_append, List.cons_prefix_cons, List.cons_prefix_cons]
        exact iff_of_false (fun meets => other meets.1) fun meets => (apart d letter).1 meets.1

/-- A pattern passes over characters that are none of its own. -/
theorem infix_append_foreign {d : Char} {block : List Char} (foreign : d ∉ block)
    (s : List Char) : d :: pat <:+: block ++ s ↔ d :: pat <:+: s := by
  induction block with
  | nil => rfl
  | cons e block ih =>
    rw [List.cons_append, List.infix_cons_iff, List.cons_prefix_cons,
      ih fun member => foreign (List.mem_cons_of_mem _ member)]
    refine or_iff_right fun meets => foreign ?_
    rw [meets.1]
    exact List.mem_cons_self

theorem infix_lowerAfter_iff (plain : ∀ d ∈ pat, isPlainLetter d = true)
    (before s : List Char) : pat <:+: lowerAfter before s ↔ pat <:+: s.map Char.toLower := by
  induction s generalizing before with
  | nil => rfl
  | cons c r ih =>
    cases pat with
    | nil => simp
    | cons d pat =>
      have letter := plain d List.mem_cons_self
      have here := prefix_lowerAfter_iff plain before (c :: r)
      obtain ⟨block, lowered, whole⟩ := exists_lowerAfter_cons before c r
      rw [whole, List.map_cons] at here
      rw [whole, List.map_cons]
      cases lowered with
      | own =>
        rw [List.singleton_append] at here
        rw [List.singleton_append, List.infix_cons_iff, List.infix_cons_iff, here, ih]
      | foreign filled apart =>
        rw [infix_append_foreign (apart d letter).2, ih, List.infix_cons_iff,
          List.cons_prefix_cons]
        exact (or_iff_right fun meets => (apart d letter).1 meets.1).symm

/-- A pattern of plain letters is found in a lowered text where the text spells it in any case. -/
theorem contains_lower_iff {s pat : String} (plain : ∀ d ∈ pat.toList, isPlainLetter d = true) :
    contains (lower s) pat = true ↔ ∃ w, w <:+: s.toList ∧ w.map Char.toLower = pat.toList := by
  rw [contains_iff, lower, String.toList_ofList, infix_lowerAfter_iff plain, List.infix_map_iff]
  simp only [eq_comm]

end ScriptGlue.Text
