import ScriptGlue.Proofs.Text.Lines

/-!
# Margins

A text gets a margin by putting it in front of every line that is not empty. For lines that are
joined this is done line by line, and a text without carriage returns is its lines joined again.
-/
namespace ScriptGlue.Text

/-- Puts a margin in front of every line that is not empty. The flag says whether a line starts
here. -/
def marginChars (margin : List Char) : Bool → List Char → List Char
  | _, [] => []
  | starts, c :: r =>
    if c = '\n' then c :: marginChars margin true r
    else (if starts then margin else []) ++ c :: marginChars margin false r

def withMargin (margin text : String) : String :=
  String.ofList (marginChars margin.toList true text.toList)

def marginLine (margin line : String) : String := if line.isEmpty then "" else margin ++ line

/-! ### Line by line -/

theorem marginChars_inside (margin : List Char) {l : List Char} (clean : '\n' ∉ l)
    (r : List Char) :
    marginChars margin false (l ++ '\n' :: r) = l ++ '\n' :: marginChars margin true r := by
  induction l with
  | nil => rfl
  | cons c l ih =>
    have other : c ≠ '\n' := fun same => clean (same ▸ List.mem_cons_self)
    rw [List.cons_append, marginChars, if_neg other,
      ih fun member => clean (List.mem_cons_of_mem c member)]
    rfl

/-- At the start of a line the margin is set unless the line is empty. -/
theorem marginChars_line (margin : List Char) {l : List Char} (clean : '\n' ∉ l) (r : List Char) :
    marginChars margin true (l ++ '\n' :: r) =
      (if l = [] then [] else margin ++ l) ++ '\n' :: marginChars margin true r := by
  cases l with
  | nil => rfl
  | cons c l =>
    have other : c ≠ '\n' := fun same => clean (same ▸ List.mem_cons_self)
    have rest : '\n' ∉ l := fun member => clean (List.mem_cons_of_mem c member)
    rw [List.cons_append, marginChars, if_neg other, marginChars_inside margin rest]
    simp

theorem toList_marginLine (margin line : String) : (marginLine margin line).toList =
    if line.toList = [] then [] else margin.toList ++ line.toList := by
  rw [marginLine]
  by_cases empty : line = ""
  · simp [empty]
  · simp [empty]

theorem marginLine_of_ne (margin : String) {line : String} (filled : line ≠ "") :
    marginLine margin line = margin ++ line := if_neg (by simpa using filled)

theorem marginLine_eq {margin line whole : String} (filled : line ≠ "")
    (joined : margin.toList ++ line.toList = whole.toList) : marginLine margin line = whole := by
  rw [marginLine_of_ne margin filled]
  exact String.toList_injective (String.toList_append.trans joined)

theorem marginLine_marginLine (outer inner line : String) :
    marginLine outer (marginLine inner line) = marginLine (outer ++ inner) line := by
  by_cases empty : line = ""
  · rw [empty]
    rfl
  · have filled : inner ++ line ≠ "" := by simp [empty]
    rw [marginLine_of_ne inner empty, marginLine_of_ne _ empty, marginLine_of_ne outer filled,
      String.append_assoc]

/-- Lines that are joined get the margin one by one. -/
theorem withMargin_unlines (margin : String) {ls : List String}
    (clean : ∀ l ∈ ls, '\n' ∉ l.toList) :
    withMargin margin (unlines ls) = unlines (ls.map (marginLine margin)) := by
  apply String.toList_injective
  rw [withMargin, String.toList_ofList]
  induction ls with
  | nil => rfl
  | cons l r ih =>
    have rest := ih fun m member => clean m (List.mem_cons_of_mem l member)
    rw [toList_unlines_cons, marginChars_line _ (clean l List.mem_cons_self), rest, List.map_cons,
      toList_unlines_cons, toList_marginLine]

/-! ### Lines joined again -/

theorem unlines_append (a b : List String) : unlines (a ++ b) = unlines a ++ unlines b :=
  String.toList_injective <| by rw [toList_unlines_append, String.toList_append]

theorem dropReturn_eq {l : List Char} (noReturn : '\r' ∉ l) : dropReturn l = l :=
  if_neg fun last => noReturn (List.mem_of_getLast? last)

/-- The line end that is missing behind a text. -/
def missingEnd (s : List Char) : List Char := if s.getLast?.all (· = '\n') then [] else ['\n']

theorem toList_unlines_lines {s : List Char} (noReturn : '\r' ∉ s) :
    (unlines ((lineChars s).map String.ofList)).toList = s ++ missingEnd s := by
  induction s using line_induction with
  | last a clean =>
    by_cases empty : a = []
    · simp [empty, missingEnd]
    · obtain ⟨front, c, rfl⟩ := (List.eq_nil_or_concat a).resolve_left empty
      have other : c ≠ '\n' := fun same => clean (by simp [same])
      rw [lineChars_last clean empty, List.map_singleton, toList_unlines_cons, unlines_nil,
        String.toList_ofList, String.toList_empty]
      simp [missingEnd, other]
  | line a b clean ih =>
    have here : '\r' ∉ a := fun member => noReturn (List.mem_append_left _ member)
    have later : '\r' ∉ b := fun member =>
      noReturn (List.mem_append_right a (List.mem_cons_of_mem _ member))
    have ends : missingEnd (a ++ '\n' :: b) = missingEnd b := by
      rw [missingEnd, missingEnd, List.getLast?_append, List.getLast?_cons]
      cases b.getLast? with
      | none => rfl
      | some c => rfl
    rw [lineChars_line clean, List.map_cons, toList_unlines_cons, ih later, String.toList_ofList,
      dropReturn_eq here, ends, List.append_assoc, List.cons_append]

/-- Without carriage returns, a text starts its lines joined again. -/
theorem isPrefix_unlines_lines {text : String} (noReturn : '\r' ∉ text.toList) :
    text.toList <+: (unlines (lines text)).toList := by
  rw [lines, toList_unlines_lines noReturn]
  exact List.prefix_append _ _

/-- Whole lines without carriage returns are not changed by cutting and joining. -/
theorem unlines_lines_unlines {ls : List String} (noReturn : '\r' ∉ (unlines ls).toList) :
    unlines (lines (unlines ls)) = unlines ls := by
  apply String.toList_injective
  rw [lines, toList_unlines_lines noReturn]
  have complete : missingEnd (unlines ls).toList = [] := by
    rcases List.eq_nil_or_concat ls with rfl | ⟨front, l, rfl⟩
    · rfl
    · rw [List.concat_eq_append, toList_unlines_append, toList_unlines_cons, missingEnd]
      simp
  rw [complete, List.append_nil]

theorem newline_not_mem_lines {text l : String} (member : l ∈ lines text) : '\n' ∉ l.toList := by
  obtain ⟨s, cut, rfl⟩ := List.mem_map.mp member
  rw [String.toList_ofList]
  exact newline_not_mem_lineChars cut

end ScriptGlue.Text
