import ScriptGlue.Proofs.Mapping.Spelling

/-!
# Collapsing once and for all

A collapsed text stays as it is when it is collapsed again, for it has the words of the text. A text
without blanks at its ends is collapsed piece by piece wherever a piece ends in a character that is
not blank.
-/
namespace ScriptGlue.Text

/-- Behind a piece that ends in no blank, squeezing starts anew. -/
theorem squeeze_append_tight {a : List Char} (ne : a ≠ [])
    (last : ∀ c ∈ a.getLast?, isBlank c = false) (held : Bool) (s : List Char) :
    squeeze held (a ++ s) = squeeze held a ++ squeeze false s := by
  induction a generalizing held with
  | nil => exact absurd rfl ne
  | cons c r ih =>
    by_cases single : r = []
    · have solid : ¬ isBlank c = true := by simp [last c (by rw [single]; rfl)]
      rw [single, List.singleton_append, squeeze, squeeze, if_neg solid, if_neg solid]
      cases held <;> simp [squeeze]
    · have later := ih single fun d final => last d (by
        rw [List.getLast?_cons_of_ne_nil single]
        exact final)
      rw [List.cons_append, squeeze, squeeze, later, later]
      split
      · rfl
      · cases held <;> rfl

/-- A tight text is collapsed by squeezing alone. -/
theorem IsTight.toList_collapse {s : String} (tight : IsTight s.toList) :
    (collapse s).toList = Text.squeeze false s.toList :=
  toList_collapse_of_head tight.head

theorem IsTight.concat {s : List Char} (tight : IsTight s) {c : Char} (solid : isBlank c = false) :
    IsTight (s ++ [c]) where
  head := by
    cases s with
    | nil => simpa using solid
    | cons d r => exact tight.head
  last := by simpa using solid

/-- A mark behind a tight text stays right behind it. -/
theorem collapse_concat {s : String} (tight : IsTight s.toList) {c : Char}
    (solid : isBlank c = false) : collapse (s ++ String.singleton c) =
      collapse s ++ String.singleton c := by
  have single : ¬ isBlank c = true := by simp [solid]
  apply String.toList_injective
  have longer : (s ++ String.singleton c).toList = s.toList ++ [c] := by simp
  have tight' : IsTight (s ++ String.singleton c).toList := longer ▸ tight.concat solid
  rw [tight'.toList_collapse, longer, String.toList_append, tight.toList_collapse]
  by_cases empty : s.toList = []
  · simp [empty, Text.squeeze, single]
  · rw [squeeze_append_tight empty tight.last]
    simp [Text.squeeze, single]

theorem words_collapse (s : String) : words (collapse s) = words s := by
  have none : runs isBlank [] = [] := runs_eq_nil_iff.mpr rfl
  have solid : ∀ w ∈ runs isBlank s.toList, w ≠ [] ∧ ∀ c ∈ w, isBlank c = false :=
    fun w member => solid_of_mem_runs member
  have again := runs_spaced solid rfl (s := []) (by simp)
  rw [List.append_nil, none, List.append_nil] at again
  exact congrArg (List.map String.ofList) again

/-- Collapsing again changes nothing. -/
theorem collapse_collapse (s : String) : collapse (collapse s) = collapse s := by
  rw [collapse, words_collapse, ← collapse]

end ScriptGlue.Text
