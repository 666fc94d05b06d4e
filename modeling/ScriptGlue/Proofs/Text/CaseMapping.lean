import ScriptGlue.Proofs.Text.Lines
import ScriptGlue.Text.CamelCase

/-!
# Case mappings

No case mapping makes a line end or an underscore of another character. So the camel case of a name
stays in one piece on a line, and it has no underscores.
-/
namespace ScriptGlue.Text

/-! ### Images of characters -/

/-- Only its own code point gives a character, the one for no valid code point apart. -/
theorem eq_toNat_of_ofNat {n : Nat} {c : Char} (solid : c ≠ '\x00') (same : Char.ofNat n = c) :
    n = c.toNat := by
  by_cases valid : n.isValidChar
  · rw [← same, Char.ofNat, dif_pos valid]
    rfl
  · have zero : Char.ofNat n = '\x00' := by
      rw [Char.ofNat, dif_neg valid]
      rfl
    exact absurd (same.symm.trans zero) solid

/-- The images of a character are the character itself, what is listed for it, or its place in a
run that is moved. -/
theorem mem_caseImage {special : List (Nat × List Nat)} {runs : List CaseRun} {c d : Char}
    (member : d ∈ caseImage special runs c) :
    d = c ∨ (∃ e ∈ special, ∃ n ∈ e.2, Char.ofNat n = d) ∨
      ∃ run ∈ runs, run.covers c.toNat = true ∧
        Char.ofNat ((c.toNat : Int) + run.shift).toNat = d := by
  unfold caseImage at member
  split at member
  · rename_i image found
    obtain ⟨n, inside, same⟩ := List.mem_map.mp member
    obtain ⟨before, after, whole, -⟩ := List.lookup_eq_some_iff.mp found
    exact .inr (.inl ⟨(c.toNat, image), by rw [whole]; simp, n, inside, same⟩)
  · split at member
    · rename_i run found
      have covers := List.find?_some found
      exact .inr (.inr ⟨run, List.mem_of_find?_eq_some found, covers,
        (List.mem_singleton.mp member).symm⟩)
    · exact .inl (List.mem_singleton.mp member)

theorem le_of_isLineEnd {n : Nat} (ends : isLineEnd (Char.ofNat n) = true) : n ≤ 13 := by
  rw [isLineEnd, Bool.or_eq_true, beq_iff_eq, beq_iff_eq] at ends
  rcases ends with feed | back
  · rw [eq_toNat_of_ofNat (by decide) feed]
    decide
  · rw [eq_toNat_of_ofNat (by decide) back]
    decide

/-- All images that a pair of case tables names lie behind the line ends. -/
def isBehindLineEnds (special : List (Nat × List Nat)) (runs : List CaseRun) : Bool :=
  special.all (fun e => e.2.all fun n => decide (13 < n)) &&
    runs.all fun run => decide (13 < run.first + run.shift)

/-- No change of case makes a line end of another character. -/
theorem isUnbroken_caseImage {special : List (Nat × List Nat)} {runs : List CaseRun}
    (behind : isBehindLineEnds special runs = true) {c : Char} (other : isLineEnd c = false) :
    IsUnbroken (caseImage special runs c) := by
  rw [isBehindLineEnds, Bool.and_eq_true, List.all_eq_true, List.all_eq_true] at behind
  intro d member
  rcases mem_caseImage member with rfl | ⟨e, listed, n, inside, rfl⟩ | ⟨run, listed, covers, rfl⟩
  · exact other
  · have above := of_decide_eq_true (List.all_eq_true.mp (behind.1 e listed) n inside)
    rw [Bool.eq_false_iff]
    intro ends
    have below := le_of_isLineEnd ends
    omega
  · have above := of_decide_eq_true (behind.2 run listed)
    rw [Bool.eq_false_iff]
    intro ends
    have below := le_of_isLineEnd ends
    rw [CaseRun.covers, Bool.and_eq_true, Bool.and_eq_true, decide_eq_true_eq,
      decide_eq_true_eq] at covers
    omega

/-- No image that a pair of case tables names is the underscore. -/
def namesNoUnderscore (special : List (Nat × List Nat)) (runs : List CaseRun) : Bool :=
  special.all (fun e => e.2.all (· != '_'.toNat)) &&
    runs.all fun run => !run.covers (('_'.toNat : Int) - run.shift).toNat

/-- Nor does one make an underscore. -/
theorem underscore_not_mem_caseImage {special : List (Nat × List Nat)} {runs : List CaseRun}
    (none : namesNoUnderscore special runs = true) {c : Char} (other : c ≠ '_') :
    '_' ∉ caseImage special runs c := by
  rw [namesNoUnderscore, Bool.and_eq_true, List.all_eq_true, List.all_eq_true] at none
  intro member
  rcases mem_caseImage member with same | ⟨e, listed, n, inside, same⟩ |
    ⟨run, listed, covers, same⟩
  · exact other same.symm
  · have apart := List.all_eq_true.mp (none.1 e listed) n inside
    rw [eq_toNat_of_ofNat (by decide) same] at apart
    exact absurd apart (by decide)
  · have moved := eq_toNat_of_ofNat (by decide) same
    have point : ('_'.toNat : Int) = 95 := by decide
    have own : (('_'.toNat : Int) - run.shift).toNat = c.toNat := by omega
    have apart := none.2 run listed
    rw [own, covers] at apart
    cases apart

/-! ### Images of both tables -/

theorem isLineEnd_ascii_case : ∀ n : Fin 128, isLineEnd (Char.ofNat n) = false →
    isLineEnd (Char.ofNat n).toLower = false ∧ isLineEnd (Char.ofNat n).toUpper = false := by
  decide

theorem isUnbroken_lowerChar {c : Char} (other : isLineEnd c = false) :
    IsUnbroken (lowerChar c) := by
  rw [lowerChar]
  split
  · rename_i ascii
    have image := isLineEnd_ascii_case ⟨c.toNat, ascii⟩
    rw [Char.ofNat_toNat] at image
    intro d member
    rw [List.mem_singleton.mp member]
    exact (image other).1
  · exact isUnbroken_caseImage (by decide) other

theorem isUnbroken_upperChar {c : Char} (other : isLineEnd c = false) :
    IsUnbroken (upperChar c) := by
  rw [upperChar]
  split
  · rename_i ascii
    have image := isLineEnd_ascii_case ⟨c.toNat, ascii⟩
    rw [Char.ofNat_toNat] at image
    intro d member
    rw [List.mem_singleton.mp member]
    exact (image other).2
  · exact isUnbroken_caseImage (by decide) other

theorem underscore_ascii_case : ∀ n : Fin 128, Char.ofNat n ≠ '_' →
    '_' ≠ (Char.ofNat n).toLower ∧ '_' ≠ (Char.ofNat n).toUpper := by
  decide

theorem underscore_not_mem_lowerChar {c : Char} (other : c ≠ '_') : '_' ∉ lowerChar c := by
  rw [lowerChar]
  split
  · rename_i ascii
    have image := underscore_ascii_case ⟨c.toNat, ascii⟩
    rw [Char.ofNat_toNat] at image
    exact fun member => (image other).1 (List.mem_singleton.mp member)
  · exact underscore_not_mem_caseImage (by decide) other

theorem underscore_not_mem_upperChar {c : Char} (other : c ≠ '_') : '_' ∉ upperChar c := by
  rw [upperChar]
  split
  · rename_i ascii
    have image := underscore_ascii_case ⟨c.toNat, ascii⟩
    rw [Char.ofNat_toNat] at image
    exact fun member => (image other).2 (List.mem_singleton.mp member)
  · exact underscore_not_mem_caseImage (by decide) other

/-! ### Camel case -/

section

variable {p : Char → Prop}

theorem forall_mem_raiseAfterUnderscore {s : List Char}
    (kept : ∀ c ∈ s, c ≠ '_' → p c ∧ ∀ d ∈ upperChar c, p d) (raise : Bool) :
    ∀ d ∈ raiseAfterUnderscore raise s, p d := by
  fun_induction raiseAfterUnderscore raise s with
  | case1 raise => exact fun d member => absurd member List.not_mem_nil
  | case2 raise r ih => exact ih fun c member => kept c (List.mem_cons_of_mem _ member)
  | case3 raise c r noUnderscore ih =>
    obtain ⟨own, upper⟩ := kept c List.mem_cons_self (by simpa using noUnderscore)
    have later := ih fun d member => kept d (List.mem_cons_of_mem _ member)
    intro d member
    rcases List.mem_append.mp member with here | behind
    · split at here
      · exact upper d here
      · exact List.mem_singleton.mp here ▸ own
    · exact later d behind

/-- Camel case has what both case mappings keep of the characters that are no underscores. -/
theorem forall_mem_camelCase {name : String}
    (kept : ∀ c ∈ name.toList, c ≠ '_' →
      p c ∧ (∀ d ∈ lowerChar c, p d) ∧ ∀ d ∈ upperChar c, p d) :
    ∀ d ∈ (camelCase name).toList, p d := by
  have later {c : Char} {r : List Char} (whole : name.toList = c :: r) (raise : Bool) :
      ∀ d ∈ raiseAfterUnderscore raise r, p d := by
    refine forall_mem_raiseAfterUnderscore (fun d member other => ?_) raise
    obtain ⟨own, -, upper⟩ := kept d (whole ▸ List.mem_cons_of_mem _ member) other
    exact ⟨own, upper⟩
  rw [camelCase, String.toList_ofList]
  split
  · exact fun d member => absurd member List.not_mem_nil
  · rename_i r whole
    exact later whole true
  · rename_i c r noUnderscore whole
    obtain ⟨-, lower, -⟩ := kept c (whole ▸ List.mem_cons_self) (by simpa using noUnderscore)
    intro d member
    exact (List.mem_append.mp member).elim (lower d) (later whole false d)

end

/-- The camel case of a name on one line is on one line. -/
theorem isUnbroken_camelCase {name : String} (unbroken : IsUnbroken name.toList) :
    IsUnbroken (camelCase name).toList :=
  forall_mem_camelCase fun c member _ => ⟨unbroken c member,
    isUnbroken_lowerChar (unbroken c member), isUnbroken_upperChar (unbroken c member)⟩

/-- Camel case leaves no underscore. -/
theorem underscore_not_mem_camelCase (name : String) : '_' ∉ (camelCase name).toList := by
  have none : ∀ d ∈ (camelCase name).toList, d ≠ '_' :=
    forall_mem_camelCase fun c _ other => ⟨other,
      fun d member same => underscore_not_mem_lowerChar other (same ▸ member),
      fun d member same => underscore_not_mem_upperChar other (same ▸ member)⟩
  exact fun member => none '_' member rfl

end ScriptGlue.Text
