import ScriptGlue.Proofs.Mapping.Rows
import ScriptGlue.Proofs.Mapping.Spelling

/-!
# Expressions of rows

The expressions of a row hold marks, and braces nowhere else. Filling in takes the marks one after
the other, and what is filled in for one is searched for the next; where nothing that is filled in
has a brace, none is left.
-/
namespace ScriptGlue

namespace Text

/-- What stands before the first character of the pattern stays. -/
theorem replaceChars_append {c : Char} {a : List Char} (absent : c ∉ a) (pat new s : List Char) :
    replaceChars (c :: pat) new (a ++ s) = a ++ replaceChars (c :: pat) new s := by
  induction a with
  | nil => rfl
  | cons d r ih =>
    rw [List.mem_cons, not_or] at absent
    have other : ¬ (0 < (c :: pat).length ∧ (c :: pat).isPrefixOf (d :: (r ++ s)) = true) := by
      simp [List.isPrefixOf, absent.1]
    rw [List.cons_append, replaceChars, if_neg other, ih absent.2]
    rfl

/-- What starts on the left of a character that it does not have lies there. -/
theorem isPrefix_left {c : Char} {pat a s : List Char} (absent : c ∉ pat)
    (starts : pat <+: a ++ c :: s) : pat <+: a := by
  obtain ⟨rest, whole⟩ := starts
  rcases List.append_eq_append_iff.mp whole with ⟨b, rfl, -⟩ | ⟨b, rfl, behind⟩
  · exact List.prefix_append pat b
  · cases b with
    | nil =>
      simp
    | cons d t =>
      obtain ⟨rfl, -⟩ := List.cons.inj behind
      exact absurd (by simp) absent

/-- Text is replaced on both sides of a character that the pattern does not have. -/
theorem replaceChars_split {c : Char} {pat : List Char} (absent : c ∉ pat) (new a s : List Char) :
    replaceChars pat new (a ++ c :: s) = replaceChars pat new a ++ c :: replaceChars pat new s := by
  fun_induction replaceChars pat new a with
  | case1 =>
    have other : ¬ (0 < pat.length ∧ pat.isPrefixOf (c :: s) = true) := by
      rintro ⟨filled, starts⟩
      have inside := isPrefix_left (a := []) absent (List.isPrefixOf_iff_prefix.mp starts)
      rw [List.prefix_nil] at inside
      simp [inside] at filled
    rw [List.nil_append, replaceChars, if_neg other]
    rfl
  | case2 d r found ih =>
    have starts := List.isPrefixOf_iff_prefix.mp found.2
    have found' : 0 < pat.length ∧ pat.isPrefixOf (d :: (r ++ c :: s)) = true :=
      ⟨found.1, List.isPrefixOf_iff_prefix.mpr (starts.trans (List.prefix_append (d :: r) _))⟩
    have rest : (d :: r ++ c :: s).drop pat.length = (d :: r).drop pat.length ++ c :: s :=
      List.drop_append_of_le_length starts.length_le
    rw [List.cons_append, replaceChars, if_pos found', ← List.cons_append, rest, ih,
      List.append_assoc]
  | case3 d r other ih =>
    have other' : ¬ (0 < pat.length ∧ pat.isPrefixOf (d :: (r ++ c :: s)) = true) := by
      rintro ⟨filled, starts⟩
      refine other ⟨filled, List.isPrefixOf_iff_prefix.mpr ?_⟩
      exact isPrefix_left (a := d :: r) absent (List.isPrefixOf_iff_prefix.mp starts)
    rw [List.cons_append, replaceChars, if_neg other', ih]
    rfl

end Text

namespace Mapping

/-- Whether each brace of a text starts one of the marks. -/
def hasOnly (marks : List String) : List Char → Bool
  | [] => true
  | c :: r => (c != '{' || marks.any fun mark => mark.toList.isPrefixOf (c :: r)) && hasOnly marks r

/-- Whether a text is a mark, with a brace at its start and none inside. -/
def isMarkText (mark : String) : Bool :=
  match mark.toList with
  | '{' :: inside => !inside.contains '{'
  | _ => false

theorem isMarkText_iff {mark : String} :
    isMarkText mark = true ↔ ∃ inside, mark.toList = '{' :: inside ∧ '{' ∉ inside := by
  unfold isMarkText
  split
  · rename_i inside whole
    simp [whole]
  · rename_i other
    simp only [Bool.false_eq_true, false_iff]
    rintro ⟨inside, whole, -⟩
    exact other inside whole

theorem hasOnly_append {marks : List String} {a : List Char} (plain : '{' ∉ a) (s : List Char) :
    hasOnly marks (a ++ s) = hasOnly marks s := by
  induction a with
  | nil => rfl
  | cons c r ih =>
    rw [List.mem_cons, not_or] at plain
    rw [List.cons_append, hasOnly, ih plain.2]
    simp [Ne.symm plain.1]

theorem hasOnly_drop {marks : List String} {s : List Char} (only : hasOnly marks s = true)
    (n : Nat) : hasOnly marks (s.drop n) = true := by
  induction n generalizing s with
  | zero => exact only
  | succ n ih =>
    cases s with
    | nil => rfl
    | cons c r =>
      rw [hasOnly, Bool.and_eq_true] at only
      exact ih only.2

/-- A mark is gone once it is replaced, and the others are still there. -/
theorem hasOnly_replaceChars {mark : String} {marks : List String}
    (shape : ∀ m ∈ mark :: marks, isMarkText m = true) {new s : List Char} (plain : '{' ∉ new)
    (only : hasOnly (mark :: marks) s = true) :
    hasOnly marks (Text.replaceChars mark.toList new s) = true := by
  obtain ⟨pat, spelled, -⟩ := isMarkText_iff.mp (shape mark List.mem_cons_self)
  fun_induction Text.replaceChars mark.toList new s with
  | case1 => rfl
  | case2 d r found ih =>
    rw [hasOnly_append plain]
    exact ih (hasOnly_drop only _)
  | case3 d r other ih =>
    rw [hasOnly, Bool.and_eq_true] at only
    rw [hasOnly, ih only.2, Bool.and_true, Bool.or_eq_true, bne_iff_ne]
    by_cases brace : d = '{'
    · subst brace
      refine .inr ?_
      have here : mark.toList.isPrefixOf ('{' :: r) = false :=
        Bool.eq_false_iff.mpr fun starts => other ⟨by simp [spelled], starts⟩
      have starts := only.1
      rw [List.any_cons, here, bne_self_eq_false, Bool.false_or, Bool.false_or] at starts
      obtain ⟨m, member, starts⟩ := List.any_eq_true.mp starts
      obtain ⟨inside, text, clean⟩ := isMarkText_iff.mp (shape m (List.mem_cons_of_mem mark member))
      refine List.any_eq_true.mpr ⟨m, member, ?_⟩
      rw [text, List.isPrefixOf_iff_prefix, List.cons_prefix_cons] at starts ⊢
      obtain ⟨t, whole⟩ := starts.2
      rw [← whole, spelled, Text.replaceChars_append clean]
      exact ⟨starts.1, List.prefix_append inside _⟩
    · exact .inl brace

theorem hasOnly_mono {marks more : List String} (part : marks ⊆ more) {s : List Char}
    (only : hasOnly marks s = true) : hasOnly more s = true := by
  induction s with
  | nil => rfl
  | cons c r ih =>
    rw [hasOnly, Bool.and_eq_true, Bool.or_eq_true, List.any_eq_true] at only ⊢
    refine ⟨only.1.imp_right ?_, ih only.2⟩
    rintro ⟨mark, member, starts⟩
    exact ⟨mark, part member, starts⟩

theorem brace_not_mem_of_hasOnly {s : List Char} (only : hasOnly [] s = true) : '{' ∉ s := by
  induction s with
  | nil => exact List.not_mem_nil
  | cons c r ih =>
    simp only [hasOnly, List.any_nil, Bool.or_false, Bool.and_eq_true, bne_iff_ne] at only
    rw [List.mem_cons, not_or]
    exact ⟨Ne.symm only.1, ih only.2⟩

/-- The letters of a literal, without decoding its bytes. -/
theorem toList_spelled {s : String} {l : List Char} (spelled : s = String.ofList l) :
    s.toList = l := by
  rw [spelled, String.toList_ofList]

/-- A literal is checked letter by letter. -/
theorem hasOnly_spelled {marks : List String} {s : String} {l : List Char}
    (spelled : s = String.ofList l) (only : hasOnly marks l = true) :
    hasOnly marks s.toList = true := by
  rw [toList_spelled spelled]
  exact only

/-- What an expression is cast to has no marks. -/
theorem hasOnly_cast {marks : List String} {cast template : String} {l : List Char}
    (spelled : cast = String.ofList l) (plain : hasOnly [] l = true)
    (only : hasOnly marks template.toList = true) :
    hasOnly marks (cast ++ template).toList = true := by
  rw [String.toList_append, toList_spelled spelled, hasOnly_append (brace_not_mem_of_hasOnly plain)]
  exact only

/-- Replacing a mark leaves the marks that are replaced after it. -/
theorem hasOnly_replace {mark : String} {marks : List String}
    (shape : ∀ m ∈ mark :: marks, isMarkText m = true) {s new : String} (plain : '{' ∉ new.toList)
    (only : hasOnly (mark :: marks) s.toList = true) :
    hasOnly marks (Text.replace s mark new).toList = true := by
  rw [Text.replace, String.toList_ofList]
  exact hasOnly_replaceChars shape plain only

/-- The marks of an expression, where a length is filled in or not. -/
def marksOf (withLength : Bool) : List String :=
  "{v}" :: "{n}" :: "{t}" :: if withLength then ["{len}"] else []

/-- Where nothing that is filled in has a brace, the expression has none. -/
theorem brace_not_mem_fill {template value name type : String} {length : Option String}
    (only : hasOnly (marksOf length.isSome) template.toList = true)
    (plainValue : '{' ∉ value.toList) (plainName : '{' ∉ name.toList)
    (plainType : '{' ∉ type.toList) (plainLength : ∀ l ∈ length, '{' ∉ l.toList) :
    '{' ∉ (fill template value name type length).toList := by
  have shape : ∀ m ∈ marksOf length.isSome, isMarkText m = true := by
    generalize length.isSome = withLength
    cases withLength <;> decide
  have later (m : String) (inside : m ∈ (marksOf length.isSome).tail) : isMarkText m = true :=
    shape m (List.mem_of_mem_tail inside)
  have behind (m : String) (inside : m ∈ (marksOf length.isSome).tail.tail) : isMarkText m = true :=
    later m (List.mem_of_mem_tail inside)
  have filled := hasOnly_replace behind plainType
    (hasOnly_replace later plainName (hasOnly_replace shape plainValue only))
  cases length with
  | none => exact brace_not_mem_of_hasOnly filled
  | some l =>
    have last : ∀ m ∈ ["{len}"], isMarkText m = true := by decide
    exact brace_not_mem_of_hasOnly (hasOnly_replace last (plainLength l rfl) filled)

/-! ### What expressions start with -/

/-- Nothing is replaced before the first brace. -/
theorem replace_append {mark lead : String} {pat : List Char} (spelled : mark.toList = '{' :: pat)
    (plain : '{' ∉ lead.toList) (new rest : String) :
    Text.replace (lead ++ rest) mark new = lead ++ Text.replace rest mark new := by
  apply String.toList_injective
  simp only [Text.replace, String.toList_append, String.toList_ofList, spelled,
    Text.replaceChars_append plain]

/-- What stands before the marks stays. -/
theorem fill_append {lead : String} (plain : '{' ∉ lead.toList)
    (rest value name type : String) (length : Option String) :
    fill (lead ++ rest) value name type length = lead ++ fill rest value name type length := by
  simp only [fill]
  rw [replace_append rfl plain, replace_append rfl plain, replace_append rfl plain]
  cases length with
  | none => rfl
  | some l => exact replace_append rfl plain l _

/-- What stands before the first mark of an expression. -/
def leadOf (template : String) : List Char := template.toList.takeWhile (· ≠ '{')

theorem leadOf_prefix_fill (template value name type : String) (length : Option String) :
    leadOf template <+: (fill template value name type length).toList := by
  have plain : '{' ∉ (String.ofList (leadOf template)).toList := by
    intro brace
    rw [leadOf, String.toList_ofList] at brace
    simpa using List.mem_takeWhile_imp brace
  have whole : String.ofList (leadOf template) ++
      String.ofList (template.toList.dropWhile (· ≠ '{')) = template := by
    rw [leadOf, ← String.ofList_append, List.takeWhile_append_dropWhile, String.ofList_toList]
  conv => rhs; rw [← whole]
  rw [fill_append plain, String.toList_append, String.toList_ofList]
  exact List.prefix_append _ _

/-- No text starts like both. -/
def apart (a b : List Char) : Bool := !a.isPrefixOf b && !b.isPrefixOf a

theorem ne_append_of_apart {a : List Char} {b s : String} (differ : apart a b.toList = true)
    (starts : a <+: s.toList) (t : String) : s ≠ b ++ t := by
  rintro rfl
  have other : b.toList <+: (b ++ t).toList := by
    rw [String.toList_append]
    exact List.prefix_append _ _
  rw [apart, Bool.and_eq_true, Bool.not_eq_true', Bool.not_eq_true', Bool.eq_false_iff,
    Bool.eq_false_iff, ne_eq, ne_eq, List.isPrefixOf_iff_prefix,
    List.isPrefixOf_iff_prefix] at differ
  rcases List.prefix_or_prefix_of_prefix starts other with inside | inside
  · exact differ.1 inside
  · exact differ.2 inside

/-- Literals are compared letter by letter. -/
theorem apart_spelled {template other : String} {l lead : List Char}
    (spelled : template = String.ofList l) (spelledOther : other = String.ofList lead)
    (differ : apart (l.takeWhile (· ≠ '{')) lead = true) :
    apart (leadOf template) other.toList = true := by
  rw [leadOf, toList_spelled spelled, toList_spelled spelledOther]
  exact differ

/-! ### Expressions of pointers -/

theorem takesLength_spelled {s : String} {l : List Char} {takes : Bool}
    (spelled : s = String.ofList l) (occurs : Text.occursIn "{len}".toList l = takes) :
    takesLength s = takes := by
  rw [takesLength, Text.contains, toList_spelled spelled]
  exact occurs

theorem isSuffix_spelled {s pat : String} {l p : List Char} (spelled : s = String.ofList l)
    (pattern : pat = String.ofList p) (ends : p.isSuffixOf l = true) : pat.toList <:+ s.toList := by
  rw [toList_spelled spelled, toList_spelled pattern]
  exact List.isSuffixOf_iff_suffix.mp ends

/-- A mark without a comma is replaced on both sides of one. -/
theorem replace_split (mark : String) (free : ',' ∉ mark.toList) (lead tail new : String) :
    Text.replace (lead ++ ("," ++ tail)) mark new =
      Text.replace lead mark new ++ ("," ++ Text.replace tail mark new) := by
  have split := Text.replaceChars_split free new.toList lead.toList tail.toList
  apply String.toList_injective
  simpa [Text.replace] using split

/-- A length that is asked for as the last argument of a call is that. -/
theorem exists_fill_length {template : String} (ends : ", {len})".toList <:+ template.toList)
    (value name type length : String) :
    ∃ lead, fill template value name type (some length) = lead ++ s!", {length})" := by
  obtain ⟨before, whole⟩ := ends
  have spelled : template = String.ofList before ++ ("," ++ " {len})") := by
    apply String.toList_injective
    rw [← whole]
    simp
  have kept : ∀ mark ∈ ["{v}", "{n}", "{t}"], ∀ new, Text.replace " {len})" mark new = " {len})" := by
    intro mark member new
    simp only [List.mem_cons, List.not_mem_nil, or_false] at member
    rcases member with rfl | rfl | rfl <;> simp [Text.replace, Text.replaceChars]
  have filled : Text.replace " {len})" "{len}" length = " " ++ (length ++ ")") := by
    simp [Text.replace, Text.replaceChars]
  refine ⟨Text.replace (Text.replace (Text.replace (Text.replace (String.ofList before) "{v}" value)
    "{n}" name) "{t}" type) "{len}" length, ?_⟩
  simp only [fill, spelled]
  rw [replace_split "{v}" (by decide), kept "{v}" (by decide), replace_split "{n}" (by decide),
    kept "{n}" (by decide), replace_split "{t}" (by decide), kept "{t}" (by decide),
    replace_split "{len}" (by decide), filled]
  apply String.toList_injective
  simp [toString]

end Mapping

end ScriptGlue
