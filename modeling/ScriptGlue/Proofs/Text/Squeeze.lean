import Mathlib.Data.List.TakeWhile
import ScriptGlue.Proofs.Text.Lines

/-!
# Squeezing blanks

Collapsed text as one pass over characters: blanks are held back, and the first character that is
not blank puts one space in their place. Unlike the cut into runs, the pass can be followed through
a text that is given in pieces.
-/
namespace ScriptGlue.Text

/-- Turns inner runs of blanks into single spaces and drops blanks at the end; `held` tells that
blanks are held back already. -/
def squeeze (held : Bool) : List Char → List Char
  | [] => []
  | c :: r =>
    if isBlank c then squeeze true r
    else if held then ' ' :: c :: squeeze false r
    else c :: squeeze false r

/-- The space that stands for blanks held back. -/
def heldSpace (held : Bool) : List Char := if held then [' '] else []

theorem squeeze_append_blanks {gap : List Char} (blank : ∀ c ∈ gap, isBlank c) (held : Bool)
    (s : List Char) : squeeze held (gap ++ s) = squeeze (held || !gap.isEmpty) s := by
  induction gap generalizing held with
  | nil => simp
  | cons c r ih =>
    have first : isBlank c = true := blank c List.mem_cons_self
    have rest := ih (fun d hd => blank d (List.mem_cons_of_mem _ hd)) true
    rw [List.cons_append, squeeze, if_pos first, rest]
    simp

theorem squeeze_false_append {w : List Char} (solid : ∀ c ∈ w, isBlank c = false) (s : List Char) :
    squeeze false (w ++ s) = w ++ squeeze false s := by
  induction w with
  | nil => rfl
  | cons c r ih =>
    have first : ¬ isBlank c = true := by simp [solid c List.mem_cons_self]
    have rest := ih fun d hd => solid d (List.mem_cons_of_mem _ hd)
    rw [List.cons_append, squeeze, if_neg first, rest]
    simp

/-- What is not blank stays, and the blanks held back before it become one space. -/
theorem squeeze_append {w : List Char} (ne : w ≠ []) (solid : ∀ c ∈ w, isBlank c = false)
    (held : Bool) (s : List Char) :
    squeeze held (w ++ s) = heldSpace held ++ w ++ squeeze false s := by
  obtain ⟨c, r, rfl⟩ := List.exists_cons_of_ne_nil ne
  have first : ¬ isBlank c = true := by simp [solid c List.mem_cons_self]
  have rest := squeeze_false_append (fun d hd => solid d (List.mem_cons_of_mem _ hd)) s
  rw [List.cons_append, squeeze, if_neg first, rest]
  cases held <;> simp [heldSpace]

/-- Blanks held back come out before the first character that is not blank, if there is one. -/
theorem squeeze_true (s : List Char) :
    squeeze true s =
      if s.dropWhile isBlank = [] then [] else ' ' :: squeeze false (s.dropWhile isBlank) := by
  induction s with
  | nil => simp [squeeze]
  | cons c r ih =>
    by_cases blank : isBlank c = true
    · rw [squeeze, if_pos blank, List.dropWhile_cons_of_pos blank, ih]
    · rw [squeeze, if_neg blank, List.dropWhile_cons_of_neg blank, squeeze, if_neg blank]
      simp

theorem squeeze_false_of_head {s : List Char} (stop : ∀ c ∈ s.head?, isBlank c = true) :
    squeeze false s = squeeze true s := by
  cases s with
  | nil => rfl
  | cons c r =>
    have blank : isBlank c = true := stop c rfl
    rw [squeeze, squeeze, if_pos blank, if_pos blank]

/-- Squeezing keeps a first character that is not blank. -/
theorem head?_squeeze {s : List Char} {c : Char} (solid : isBlank c = false) :
    (squeeze false s).head? = some c ↔ s.head? = some c := by
  cases s with
  | nil => rfl
  | cons d r =>
    by_cases blank : isBlank d = true
    · have other : d ≠ c := by
        rintro rfl
        rw [blank] at solid
        cases solid
      rw [squeeze, if_pos blank, squeeze_true]
      have space : ' ' ≠ c := by
        rintro rfl
        exact absurd solid (by decide)
      split <;> simp [other, space]
    · rw [squeeze, if_neg blank]
      simp

theorem head?_any_squeeze {p : Char → Bool} (solid : ∀ c, p c = true → isBlank c = false)
    (s : List Char) : (squeeze false s).head?.any p = s.head?.any p := by
  rw [Bool.eq_iff_iff, Option.any_eq_true, Option.any_eq_true]
  constructor
  · rintro ⟨c, head, holds⟩
    exact ⟨c, (head?_squeeze (solid c holds)).mp head, holds⟩
  · rintro ⟨c, head, holds⟩
    exact ⟨c, (head?_squeeze (solid c holds)).mpr head, holds⟩

theorem head?_beq_squeeze {c : Char} (solid : isBlank c = false) (s : List Char) :
    ((squeeze false s).head? == some c) = (s.head? == some c) := by
  rw [Bool.eq_iff_iff, beq_iff_eq, beq_iff_eq, head?_squeeze solid]

theorem dots_squeeze (s : List Char) :
    ['.', '.'].isPrefixOf (squeeze false s) = ['.', '.'].isPrefixOf s := by
  have single (t : List Char) : ['.'].isPrefixOf t = (t.head? == some '.') := by
    cases t <;> simp [List.isPrefixOf, eq_comm, Bool.beq_eq_decide_eq]
  have dot : ¬ isBlank '.' = true := by decide
  by_cases first : s.head? = some '.'
  · obtain ⟨r, rfl⟩ : ∃ r, s = '.' :: r := by simpa [List.head?_eq_some_iff] using first
    rw [squeeze, if_neg dot]
    simp only [Bool.false_eq_true, if_false, List.isPrefixOf, BEq.rfl, Bool.true_and, single]
    exact head?_beq_squeeze (by decide) r
  · have none (t : List Char) (other : t.head? ≠ some '.') : ['.', '.'].isPrefixOf t = false := by
      cases t with
      | nil => rfl
      | cons d r =>
        have differs : ¬ '.' = d := fun same => other (by rw [same]; rfl)
        simp [List.isPrefixOf, differs]
    rw [none s first, none]
    rwa [ne_eq, head?_squeeze (by decide)]

theorem not_of_head?_dropWhile {p : Char → Bool} {s : List Char} {c : Char}
    (head : (s.dropWhile p).head? = some c) : p c = false := by
  have first := List.head?_dropWhile_not p s
  rwa [head] at first

theorem runs_eq_nil_iff {p : Char → Bool} {s : List Char} :
    runs p s = [] ↔ s.dropWhile p = [] := by
  rw [runs]
  split <;> simp_all

theorem toList_spaced_cons (w : List Char) (ws : List (List Char)) :
    (" ".intercalate ((w :: ws).map String.ofList)).toList =
      w ++ if ws = [] then [] else ' ' :: (" ".intercalate (ws.map String.ofList)).toList := by
  cases ws <;> simp [String.intercalate_cons_cons]

theorem toList_spaced_runs (s : List Char) :
    (" ".intercalate ((runs isBlank s).map String.ofList)).toList =
      squeeze false (s.dropWhile isBlank) := by
  fun_induction runs isBlank s with
  | case1 s empty => simp [empty, squeeze]
  | case2 s c r word ih =>
    have solid : ∀ d ∈ c :: r.takeWhile (!isBlank ·), isBlank d = false := by
      intro d member
      rcases List.mem_cons.mp member with rfl | member
      · exact not_of_head?_dropWhile (by rw [word]; rfl)
      · simpa using List.mem_takeWhile_imp member
    have stop : ∀ d ∈ (r.dropWhile (!isBlank ·)).head?, isBlank d = true := by
      intro d head
      simpa using not_of_head?_dropWhile head
    have whole : c :: r = (c :: r.takeWhile (!isBlank ·)) ++ r.dropWhile (!isBlank ·) := by
      rw [List.cons_append, List.takeWhile_append_dropWhile]
    rw [toList_spaced_cons, ih, word, whole, squeeze_false_append solid,
      squeeze_false_of_head stop, squeeze_true]
    simp only [runs_eq_nil_iff]

/-- Collapsing is squeezing once the leading blanks are gone. -/
theorem toList_collapse (s : String) :
    (collapse s).toList = squeeze false (s.toList.dropWhile isBlank) :=
  toList_spaced_runs s.toList

/-- A text that starts with no blank is squeezed as it is. -/
theorem toList_collapse_of_head {s : String} (solid : ∀ c ∈ s.toList.head?, isBlank c = false) :
    (collapse s).toList = squeeze false s.toList := by
  rw [toList_collapse]
  cases hs : s.toList with
  | nil => rfl
  | cons c r =>
    have first : ¬ isBlank c = true := by simp [solid c (by rw [hs]; rfl)]
    rw [List.dropWhile_cons_of_neg first]

/-- Squeezed text keeps no blank but spaces. -/
theorem eq_space_of_mem_squeeze {held : Bool} {s : List Char} {c : Char}
    (member : c ∈ squeeze held s) (blank : isBlank c = true) : c = ' ' := by
  induction s generalizing held with
  | nil => cases member
  | cons d r ih =>
    rw [squeeze] at member
    split at member
    · exact ih member
    · rename_i solid
      split at member
      · rcases List.mem_cons.mp member with rfl | member
        · rfl
        · rcases List.mem_cons.mp member with rfl | member
          · exact absurd blank solid
          · exact ih member
      · rcases List.mem_cons.mp member with rfl | member
        · exact absurd blank solid
        · exact ih member

theorem isUnbroken_collapse (s : String) : IsUnbroken (collapse s).toList := by
  intro c member
  rw [toList_collapse] at member
  cases ends : isLineEnd c with
  | false => rfl
  | true =>
    have blank : isBlank c = true := by
      rw [isLineEnd, Bool.or_eq_true, beq_iff_eq, beq_iff_eq] at ends
      rcases ends with rfl | rfl <;> decide
    rw [eq_space_of_mem_squeeze member blank] at ends
    exact absurd ends (by decide)

/-- Blanks around a text that neither starts nor ends with one are all that trimming drops. -/
theorem trimChars_append {a t b : List Char} (before : ∀ c ∈ a, isBlank c = true)
    (after : ∀ c ∈ b, isBlank c = true) (head : ∀ c ∈ t.head?, isBlank c = false)
    (last : ∀ c ∈ t.getLast?, isBlank c = false) : trimChars (a ++ (t ++ b)) = t := by
  rw [trimChars, List.dropWhile_append_of_pos before]
  cases t with
  | nil => simp [List.dropWhile_eq_nil_iff.mpr after]
  | cons c r =>
    have first : ¬ isBlank c = true := by simp [head c rfl]
    have back : ∀ d ∈ b.reverse, isBlank d = true := fun d member =>
      after d (List.mem_reverse.mp member)
    rw [List.cons_append, List.dropWhile_cons_of_neg first, ← List.cons_append,
      List.reverse_append, List.dropWhile_append_of_pos back]
    obtain ⟨d, s, whole⟩ := List.exists_cons_of_ne_nil
      (List.reverse_ne_nil_iff.mpr (List.cons_ne_nil c r))
    have final : ¬ isBlank d = true := by
      simp [last d (by rw [List.getLast?_eq_head?_reverse, whole]; rfl)]
    rw [whole, List.dropWhile_cons_of_neg final, ← whole, List.reverse_reverse]

/-- No blank stands at the ends of a text. -/
structure IsTight (s : List Char) : Prop where
  head : ∀ c ∈ s.head?, isBlank c = false
  last : ∀ c ∈ s.getLast?, isBlank c = false

theorem IsTight.trimChars_eq {s : List Char} (tight : IsTight s) : trimChars s = s := by
  have none : ∀ c ∈ ([] : List Char), isBlank c = true := by simp
  have whole := trimChars_append none none tight.head tight.last
  rwa [List.nil_append, List.append_nil] at whole

theorem exists_trimChars (s : List Char) : ∃ before after, (∀ c ∈ before, isBlank c = true) ∧
    (∀ c ∈ after, isBlank c = true) ∧ s = before ++ (trimChars s ++ after) := by
  refine ⟨s.takeWhile isBlank, ((s.dropWhile isBlank).reverse.takeWhile isBlank).reverse,
    fun c member => List.mem_takeWhile_imp member, fun c member => ?_, ?_⟩
  · exact List.mem_takeWhile_imp (List.mem_reverse.mp member)
  · rw [trimChars, ← List.reverse_append, List.takeWhile_append_dropWhile, List.reverse_reverse,
      List.takeWhile_append_dropWhile]

theorem trimChars_cons {c : Char} (blank : isBlank c = true) (s : List Char) :
    trimChars (c :: s) = trimChars s := by
  rw [trimChars, List.dropWhile_cons_of_pos blank, ← trimChars]

theorem trimChars_concat {c : Char} (blank : isBlank c = true) (s : List Char) :
    trimChars (s ++ [c]) = trimChars s := by
  rw [trimChars, trimChars, List.dropWhile_append]
  split
  · rename_i empty
    rw [List.isEmpty_iff.mp empty, List.dropWhile_cons_of_pos blank]
    rfl
  · rw [List.reverse_concat, List.dropWhile_cons_of_pos blank]

/-- The carriage return of a line end is a blank like others. -/
theorem trimChars_dropReturn (l : List Char) : trimChars (dropReturn l) = trimChars l := by
  unfold dropReturn
  split
  · rename_i returns
    obtain ⟨s, rfl⟩ := List.getLast?_eq_some_iff.mp returns
    rw [List.dropLast_concat, trimChars_concat (by decide)]
  · rfl

theorem mem_of_mem_trimChars {c : Char} {s : List Char} (member : c ∈ trimChars s) : c ∈ s := by
  rw [trimChars, List.mem_reverse] at member
  have kept := (List.dropWhile_sublist isBlank).subset member
  rw [List.mem_reverse] at kept
  exact (List.dropWhile_sublist isBlank).subset kept

theorem isBlank_of_getLast?_trimChars {s : List Char} {c : Char}
    (last : (trimChars s).getLast? = some c) : isBlank c = false := by
  rw [trimChars, List.getLast?_reverse] at last
  exact not_of_head?_dropWhile last

/-- Trimmed text from one line, behind a lead that stays on its line, is a line again. -/
theorem isWholeLine_append_trim {lead s : String} (stays : IsUnbroken lead.toList)
    (sameLine : '\n' ∉ s.toList) : IsWholeLine (lead ++ trim s).toList := by
  have whole : (lead ++ trim s).toList = lead.toList ++ trimChars s.toList := by
    rw [String.toList_append, trim, String.toList_ofList]
  rw [whole]
  constructor
  · rw [List.mem_append, not_or]
    exact ⟨stays.newline_not_mem, fun member => sameLine (mem_of_mem_trimChars member)⟩
  · rw [List.getLast?_append]
    cases last : (trimChars s.toList).getLast? with
    | none => exact stays.getLast?_ne
    | some c =>
      intro returns
      rw [Option.some_or] at returns
      cases returns
      exact absurd (isBlank_of_getLast?_trimChars last) (by decide)

end ScriptGlue.Text
