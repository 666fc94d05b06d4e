import Mathlib.Data.List.TakeWhile
import ScriptGlue.Proofs.Text.Letters

/-!
# Cutting into lines

How lines follow a text that is given in pieces: a line feed ends the first line, what stands before
a line feed is cut apart from what follows it, and a line begins the way its text begins.
-/
namespace ScriptGlue.Text

/-- A text is a last line, or a line, its line feed and a text. -/
@[elab_as_elim]
theorem line_induction {motive : List Char → Prop} (last : ∀ a, '\n' ∉ a → motive a)
    (line : ∀ a b, '\n' ∉ a → motive b → motive (a ++ '\n' :: b)) (s : List Char) : motive s := by
  by_cases broken : '\n' ∈ s
  · obtain ⟨a, b, whole, clean⟩ := List.eq_append_cons_of_mem broken
    have shorter : b.length < s.length := by
      rw [whole, List.length_append, List.length_cons]
      omega
    exact whole ▸ line a b clean (line_induction last line b)
  · exact last s broken
termination_by s.length

theorem takeWhile_line {a : List Char} (clean : '\n' ∉ a) (b : List Char) :
    (a ++ '\n' :: b).takeWhile (· ≠ '\n') = a := by
  rw [List.takeWhile_append_of_pos]
  · simp
  · intro c member
    simpa using fun same : c = '\n' => clean (same ▸ member)

theorem dropWhile_line {a : List Char} (clean : '\n' ∉ a) (b : List Char) :
    (a ++ '\n' :: b).dropWhile (· ≠ '\n') = '\n' :: b := by
  rw [List.dropWhile_append_of_pos]
  · simp
  · intro c member
    simpa using fun same : c = '\n' => clean (same ▸ member)

@[simp] theorem lineChars_nil : lineChars [] = [] := by
  rw [lineChars]

/-- A line feed ends the first line. -/
theorem lineChars_line {a : List Char} (clean : '\n' ∉ a) (b : List Char) :
    lineChars (a ++ '\n' :: b) = dropReturn a :: lineChars b := by
  have taken := takeWhile_line clean b
  have dropped := dropWhile_line clean b
  obtain ⟨c, r, shape⟩ : ∃ c r, a ++ '\n' :: b = c :: r := List.exists_cons_of_ne_nil (by simp)
  rw [shape] at taken dropped ⊢
  rw [lineChars]
  split
  · rename_i none
    rw [dropped] at none
    cases none
  · rename_i some
    rw [dropped] at some
    cases some
    rw [taken]

/-- Text without a line feed is one line, if there is any. -/
theorem lineChars_last {a : List Char} (clean : '\n' ∉ a) (ne : a ≠ []) : lineChars a = [a] := by
  obtain ⟨c, r, rfl⟩ := List.exists_cons_of_ne_nil ne
  have dropped : (c :: r).dropWhile (· ≠ '\n') = [] := by
    rw [List.dropWhile_eq_nil_iff]
    intro d member
    simpa using fun same : d = '\n' => clean (same ▸ member)
  rw [lineChars]
  split
  · rfl
  · rename_i some
    rw [dropped] at some
    cases some

/-- Text after a line feed is cut on its own. -/
theorem lineChars_append_line (a b : List Char) :
    lineChars (a ++ '\n' :: b) = lineChars (a ++ ['\n']) ++ lineChars b := by
  induction a using line_induction with
  | last a clean =>
    rw [lineChars_line clean, lineChars_line clean, lineChars_nil]
    rfl
  | line a r clean ih =>
    rw [List.append_assoc, List.append_assoc, List.cons_append, List.cons_append,
      lineChars_line clean, lineChars_line clean, ih]
    rfl

theorem dropReturn_append {a : List Char} (b : List Char) (ends : a.getLast? ≠ some '\r') :
    ∃ r, dropReturn (a ++ b) = a ++ r := by
  unfold dropReturn
  split
  · rename_i returns
    have ne : b ≠ [] := by
      rintro rfl
      exact ends (by rwa [List.append_nil] at returns)
    exact ⟨b.dropLast, List.dropLast_append_of_ne_nil ne⟩
  · exact ⟨b, rfl⟩

/-- The first line begins with all that stands before any line feed. -/
theorem lineChars_begins {a : List Char} (clean : '\n' ∉ a) (ne : a ≠ [])
    (ends : a.getLast? ≠ some '\r') (b : List Char) :
    ∃ r ls, lineChars (a ++ b) = (a ++ r) :: ls := by
  by_cases broken : '\n' ∈ b
  · obtain ⟨l, s, rfl, cleanLine⟩ := List.eq_append_cons_of_mem broken
    obtain ⟨r, same⟩ := dropReturn_append l ends
    have cleanBoth : '\n' ∉ a ++ l := by simp [clean, cleanLine]
    refine ⟨r, lineChars s, ?_⟩
    rw [← List.append_assoc, lineChars_line cleanBoth, same]
  · have cleanBoth : '\n' ∉ a ++ b := by simp [clean, broken]
    exact ⟨b, [], lineChars_last cleanBoth (by simp [ne])⟩

theorem dropReturn_isPrefix (l : List Char) : dropReturn l <+: l := by
  unfold dropReturn
  split
  · exact List.dropLast_prefix l
  · exact List.prefix_refl l

/-- Every line stands in the text. -/
theorem infix_of_mem_lineChars {s l : List Char} (member : l ∈ lineChars s) : l <:+: s := by
  induction s using line_induction with
  | last a clean =>
    by_cases empty : a = []
    · simp [empty] at member
    · rw [lineChars_last clean empty, List.mem_singleton] at member
      exact member ▸ List.infix_refl a
  | line a b clean ih =>
    rw [lineChars_line clean] at member
    rcases List.mem_cons.mp member with rfl | member
    · exact (dropReturn_isPrefix a).isInfix.trans (List.prefix_append _ _).isInfix
    · refine (ih member).trans (List.IsSuffix.isInfix ?_)
      exact (List.suffix_cons '\n' b).trans (List.suffix_append a _)

theorem newline_not_mem_lineChars {s l : List Char} (member : l ∈ lineChars s) : '\n' ∉ l := by
  induction s using line_induction with
  | last a clean =>
    by_cases empty : a = []
    · simp [empty] at member
    · rw [lineChars_last clean empty, List.mem_singleton] at member
      exact member ▸ clean
  | line a b clean ih =>
    rw [lineChars_line clean] at member
    rcases List.mem_cons.mp member with rfl | member
    · exact fun inside => clean ((dropReturn_isPrefix a).subset inside)
    · exact ih member

/-! ### Joined lines -/

/-- Lines as one text. -/
def unlines (ls : List String) : String := String.join (ls.map (· ++ "\n"))

@[simp] theorem unlines_nil : unlines [] = "" := rfl

theorem toList_unlines_cons (l : String) (ls : List String) :
    (unlines (l :: ls)).toList = l.toList ++ '\n' :: (unlines ls).toList := by
  simp [unlines]

theorem toList_unlines_append (a b : List String) :
    (unlines (a ++ b)).toList = (unlines a).toList ++ (unlines b).toList := by
  simp [unlines]

theorem lines_unlines_append (a b : List String) :
    lines (unlines (a ++ b)) = lines (unlines a) ++ lines (unlines b) := by
  rw [lines, lines, lines, toList_unlines_append, ← List.map_append]
  congr 1
  rcases List.eq_nil_or_concat a with rfl | ⟨front, l, rfl⟩
  · simp
  · have shape : (unlines (front.concat l)).toList =
        (unlines front).toList ++ l.toList ++ ['\n'] := by
      rw [List.concat_eq_append, toList_unlines_append, toList_unlines_cons, List.append_assoc]
      rfl
    rw [shape, List.append_assoc _ ['\n'], List.singleton_append, lineChars_append_line]

/-- A character that may belong to a line end. -/
def isLineEnd (c : Char) : Bool := c == '\n' || c == '\r'

theorem isLineEnd_of_isIdentRest {c : Char} (rest : isIdentRest c = true) :
    isLineEnd c = false := by
  rw [Bool.eq_false_iff]
  intro ends
  have blank : isBlank c = true := by
    rw [isLineEnd, Bool.or_eq_true, beq_iff_eq, beq_iff_eq] at ends
    rcases ends with rfl | rfl <;> decide
  rw [isBlank_of_isIdentRest rest] at blank
  cases blank

/-- A text that stays in one piece on a line. -/
def IsUnbroken (s : List Char) : Prop := ∀ c ∈ s, isLineEnd c = false

instance (s : List Char) : Decidable (IsUnbroken s) := decidableAllChars s

namespace IsUnbroken

variable {s t : List Char}

theorem newline_not_mem (unbroken : IsUnbroken s) : '\n' ∉ s := fun member =>
  absurd (unbroken _ member) (by decide)

theorem getLast?_ne (unbroken : IsUnbroken s) : s.getLast? ≠ some '\r' := fun last =>
  absurd (unbroken _ (List.mem_of_getLast? last)) (by decide)

theorem append (first : IsUnbroken s) (second : IsUnbroken t) : IsUnbroken (s ++ t) := by
  intro c member
  rcases List.mem_append.mp member with member | member
  · exact first c member
  · exact second c member

theorem intercalate {sep : String} {ls : List String} (between : IsUnbroken sep.toList)
    (each : ∀ l ∈ ls, IsUnbroken l.toList) : IsUnbroken (sep.intercalate ls).toList := by
  induction ls with
  | nil => exact fun c member => absurd member List.not_mem_nil
  | cons l r ih =>
    have here := each l List.mem_cons_self
    have rest := ih fun m member => each m (List.mem_cons_of_mem _ member)
    cases r with
    | nil => simpa using here
    | cons m r =>
      rw [String.intercalate_cons_cons, String.toList_append, String.toList_append]
      exact (here.append between).append rest

/-- A text can be checked by its characters, which takes less than taking it apart. -/
theorem of_chars {s : String} {cs : List Char} (spelled : s = String.ofList cs)
    (unbroken : IsUnbroken cs) : IsUnbroken s.toList := by
  rwa [spelled, String.toList_ofList]

end IsUnbroken

theorem isUnbroken_append {a b : String} :
    IsUnbroken (a ++ b).toList ↔ IsUnbroken a.toList ∧ IsUnbroken b.toList := by
  simp only [IsUnbroken, String.toList_append, List.mem_append]
  exact ⟨fun all => ⟨fun c member => all c (.inl member), fun c member => all c (.inr member)⟩,
    fun ⟨first, second⟩ c member => member.elim (first c) (second c)⟩

theorem isUnbroken_repr (n : Nat) : IsUnbroken n.repr.toList := by
  intro c member
  rw [Nat.toList_repr] at member
  exact isLineEnd_of_isIdentRest
    (isIdentRest_of_isDigit (Nat.isDigit_of_mem_toDigits (by decide) (by decide) member))

/-- A text that is one line as it stands: nothing in it ends a line, and a line feed behind it takes
nothing from it. -/
structure IsWholeLine (s : List Char) : Prop where
  newline_not_mem : '\n' ∉ s
  getLast?_ne : s.getLast? ≠ some '\r'

theorem IsUnbroken.isWholeLine {s : List Char} (unbroken : IsUnbroken s) : IsWholeLine s :=
  ⟨unbroken.newline_not_mem, unbroken.getLast?_ne⟩

/-- Whole lines that are joined are found again. -/
theorem lines_unlines_of_whole {ls : List String} (whole : ∀ l ∈ ls, IsWholeLine l.toList) :
    lines (unlines ls) = ls := by
  induction ls with
  | nil => exact congrArg (List.map String.ofList) lineChars_nil
  | cons l r ih =>
    have here := whole l List.mem_cons_self
    have rest := ih fun m member => whole m (List.mem_cons_of_mem _ member)
    have kept : dropReturn l.toList = l.toList := if_neg here.getLast?_ne
    rw [lines] at rest
    rw [lines, toList_unlines_cons, lineChars_line here.newline_not_mem, List.map_cons, rest, kept,
      String.ofList_toList]

/-- Lines that are joined are found again. -/
theorem lines_unlines {ls : List String} (unbroken : ∀ l ∈ ls, IsUnbroken l.toList) :
    lines (unlines ls) = ls :=
  lines_unlines_of_whole fun l member => (unbroken l member).isWholeLine

/-- What a joined line starts with still starts a line. -/
theorem line_of_mem {ls : List String} {start rest : String} (member : start ++ rest ∈ ls)
    (filled : start ≠ "") (unbroken : IsUnbroken start.toList) :
    ∃ more, start ++ more ∈ lines (unlines ls) := by
  obtain ⟨before, after, rfl⟩ := List.append_of_mem member
  have nonempty : start.toList ≠ [] := by simpa using filled
  obtain ⟨more, others, first⟩ := lineChars_begins unbroken.newline_not_mem nonempty
    unbroken.getLast?_ne
    (rest.toList ++ '\n' :: (unlines after).toList)
  refine ⟨String.ofList more, ?_⟩
  rw [lines_unlines_append, List.mem_append]
  right
  rw [lines, toList_unlines_cons, String.toList_append, List.append_assoc, first, List.map_cons,
    String.ofList_append, String.ofList_toList]
  exact List.mem_cons_self

end ScriptGlue.Text
