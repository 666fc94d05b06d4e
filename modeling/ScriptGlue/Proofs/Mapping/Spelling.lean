import ScriptGlue.Mapping.Spelling
import ScriptGlue.Proofs.Text.Squeeze

/-!
# Spellings of native types

A canonical spelling has the words and the stars of the type that it spells, and nothing else. So it
is canonical itself, and what is looked up by words and stars is the same for all types that are
spelled alike.
-/
namespace ScriptGlue

namespace Text

variable {p : Char → Bool}

theorem runs_of_dropWhile {s r : List Char} {c : Char} (whole : s.dropWhile p = c :: r) :
    runs p s = (c :: r.takeWhile (!p ·)) :: runs p (r.dropWhile (!p ·)) := by
  rw [runs]
  split
  · rename_i empty
    rw [whole] at empty
    cases empty
  · rename_i d t same
    rw [whole] at same
    cases same
    rfl

theorem runs_separator {c : Char} (separates : p c = true) (s : List Char) :
    runs p (c :: s) = runs p s := by
  have same : (c :: s).dropWhile p = s.dropWhile p := List.dropWhile_cons_of_pos separates
  cases whole : s.dropWhile p with
  | nil => rw [runs_eq_nil_iff.mpr whole, runs_eq_nil_iff.mpr (same.trans whole)]
  | cons d r => rw [runs_of_dropWhile whole, runs_of_dropWhile (same.trans whole)]

theorem runs_separators {gap : List Char} (separate : ∀ c ∈ gap, p c = true) : runs p gap = [] := by
  rw [runs_eq_nil_iff, List.dropWhile_eq_nil_iff]
  exact separate

/-- A word that something separates from what follows is a run. -/
theorem runs_word {w s : List Char} (ne : w ≠ []) (solid : ∀ c ∈ w, p c = false)
    (stop : ∀ c ∈ s.head?, p c = true) : runs p (w ++ s) = w :: runs p s := by
  obtain ⟨c, r, rfl⟩ := List.exists_cons_of_ne_nil ne
  have first : (c :: r ++ s).dropWhile p = c :: (r ++ s) := by
    rw [List.cons_append, List.dropWhile_cons_of_neg (by simp [solid c List.mem_cons_self])]
  have inside : ∀ d ∈ r, (!p d) = true := fun d member => by
    simp [solid d (List.mem_cons_of_mem c member)]
  have stops : ∀ d ∈ s.head?, (!p d) = false := fun d head => by simp [stop d head]
  have taken : (r ++ s).takeWhile (!p ·) = r := by
    rw [List.takeWhile_append_of_pos inside]
    cases s with
    | nil => simp
    | cons d t => simp [stop d rfl]
  have dropped : (r ++ s).dropWhile (!p ·) = s := by
    rw [List.dropWhile_append_of_pos inside]
    cases s with
    | nil => rfl
    | cons d t => simp [stop d rfl]
  rw [runs_of_dropWhile first, taken, dropped]

/-- A run is not empty, and nothing in it separates. -/
theorem solid_of_mem_runs {w s : List Char} (member : w ∈ runs p s) :
    w ≠ [] ∧ ∀ c ∈ w, p c = false := by
  fun_induction runs p s with
  | case1 => cases member
  | case2 s c r whole ih =>
    rcases List.mem_cons.mp member with rfl | later
    · refine ⟨List.cons_ne_nil _ _, fun d inside => ?_⟩
      rcases List.mem_cons.mp inside with rfl | inside
      · exact not_of_head?_dropWhile (by rw [whole]; rfl)
      · simpa using List.mem_takeWhile_imp inside
    · exact ih later

/-- Words are found again behind one another, if blanks separate. -/
theorem runs_spaced {ws : List (List Char)} (solid : ∀ w ∈ ws, w ≠ [] ∧ ∀ c ∈ w, p c = false)
    (space : p ' ' = true) {s : List Char} (stop : ∀ c ∈ s.head?, p c = true) :
    runs p ((" ".intercalate (ws.map String.ofList)).toList ++ s) = ws ++ runs p s := by
  induction ws with
  | nil => rfl
  | cons w r ih =>
    obtain ⟨ne, here⟩ := solid w List.mem_cons_self
    have later := ih fun v member => solid v (List.mem_cons_of_mem w member)
    rw [toList_spaced_cons, List.append_assoc]
    by_cases last : r = []
    · rw [if_pos last, last, List.nil_append, runs_word ne here stop]
      rfl
    · rw [if_neg last, runs_word ne here (by simpa using space), List.cons_append,
        runs_separator space, later]
      rfl

/-- A text of words has the characters of the words and spaces. -/
theorem mem_spaced {ws : List String} {c : Char} (member : c ∈ (" ".intercalate ws).toList) :
    c = ' ' ∨ ∃ w ∈ ws, c ∈ w.toList := by
  induction ws with
  | nil => cases member
  | cons w r ih =>
    cases r with
    | nil => exact .inr ⟨w, List.mem_cons_self, by simpa using member⟩
    | cons v r =>
      rw [String.intercalate_cons_cons, String.toList_append, String.toList_append] at member
      rcases List.mem_append.mp member with before | later
      · rcases List.mem_append.mp before with here | space
        · exact .inr ⟨w, List.mem_cons_self, here⟩
        · exact .inl (List.mem_singleton.mp space)
      · rcases ih later with space | ⟨u, inside, there⟩
        · exact .inl space
        · exact .inr ⟨u, List.mem_cons_of_mem w inside, there⟩

theorem subset_spaced {ws : List String} {w : String} (member : w ∈ ws) :
    w.toList ⊆ (" ".intercalate ws).toList := by
  induction ws with
  | nil => cases member
  | cons v r ih =>
    cases r with
    | nil =>
      obtain rfl := List.mem_singleton.mp member
      simp
    | cons u r =>
      rw [String.intercalate_cons_cons, String.toList_append, String.toList_append]
      rcases List.mem_cons.mp member with rfl | later
      · rw [List.append_assoc]
        exact List.subset_append_left _ _
      · exact List.Subset.trans (ih later) (List.subset_append_right _ _)

end Text

namespace Mapping

/-- What words of types do not hold. -/
def partsWords (c : Char) : Bool := c == '*' || Text.isBlank c

theorem solid_of_mem_typeWords {type w : String} (member : w ∈ typeWords type) :
    w.toList ≠ [] ∧ ∀ c ∈ w.toList, partsWords c = false := by
  obtain ⟨run, inside, rfl⟩ := List.mem_map.mp member
  rw [String.toList_ofList]
  exact Text.solid_of_mem_runs inside

/-- Words with one space between neighbours, and stars behind them. -/
def starred (ws : List String) (stars : Nat) : String :=
  " ".intercalate ws ++ String.ofList (List.replicate stars '*')

theorem canonical_eq_starred (type : String) :
    canonical type = starred (typeWords type) (pointerDepth type) := rfl

theorem toList_starred (ws : List String) (stars : Nat) :
    (starred ws stars).toList = (" ".intercalate ws).toList ++ List.replicate stars '*' := by
  rw [starred, String.toList_append, String.toList_ofList]

section Starred

variable {ws : List String}
  (solid : ∀ w ∈ ws, w.toList ≠ [] ∧ ∀ c ∈ w.toList, partsWords c = false)
include solid

/-- The words are found again. -/
theorem typeWords_starred (stars : Nat) : typeWords (starred ws stars) = ws := by
  have parts : ∀ c ∈ List.replicate stars '*', partsWords c = true := by
    intro c member
    rw [List.eq_of_mem_replicate member]
    rfl
  have spelled : (ws.map String.toList).map String.ofList = ws := by
    simp [List.map_map, Function.comp_def]
  have words := Text.runs_spaced (p := partsWords) (s := List.replicate stars '*')
    (List.forall_mem_map.mpr solid) rfl fun c head => parts c (List.mem_of_mem_head? head)
  rw [spelled, Text.runs_separators parts, List.append_nil, ← toList_starred] at words
  exact (congrArg (List.map String.ofList) words).trans spelled

/-- So are the stars. -/
theorem pointerDepth_starred (stars : Nat) : pointerDepth (starred ws stars) = stars := by
  have noStar : '*' ∉ (" ".intercalate ws).toList := by
    intro member
    rcases Text.mem_spaced member with space | ⟨w, inside, star⟩
    · exact absurd space (by decide)
    · exact absurd ((solid w inside).2 '*' star) (by decide)
  rw [pointerDepth, toList_starred, List.count_append, List.count_eq_zero_of_not_mem noStar,
    List.count_replicate_self, Nat.zero_add]

end Starred

/-- A spelling has the words of the type. -/
@[simp] theorem typeWords_canonical (type : String) : typeWords (canonical type) = typeWords type :=
  typeWords_starred (fun _ member => solid_of_mem_typeWords member) (pointerDepth type)

/-- It has its stars, too. -/
@[simp] theorem pointerDepth_canonical (type : String) :
    pointerDepth (canonical type) = pointerDepth type :=
  pointerDepth_starred (fun _ member => solid_of_mem_typeWords member) (pointerDepth type)

/-- A canonical spelling is canonical. -/
@[simp] theorem canonical_canonical (type : String) : canonical (canonical type) = canonical type := by
  conv => lhs; rw [canonical, typeWords_canonical, pointerDepth_canonical, ← canonical]

@[simp] theorem baseName_canonical (type : String) : baseName (canonical type) = baseName type := by
  rw [baseName, typeWords_canonical, ← baseName]

/-- A spelling has the characters of the base name, of `const` and of `struct`, blanks and stars. -/
theorem mem_canonical {type : String} {c : Char} (member : c ∈ (canonical type).toList) :
    partsWords c = true ∨ c ∈ "const".toList ∨ c ∈ "struct".toList ∨
      c ∈ (baseName type).toList := by
  rw [canonical_eq_starred, toList_starred] at member
  rcases List.mem_append.mp member with word | star
  · rcases Text.mem_spaced word with rfl | ⟨w, inside, there⟩
    · exact .inl rfl
    · by_cases const : w = "const"
      · exact .inr (.inl (const ▸ there))
      by_cases struct : w = "struct"
      · exact .inr (.inr (.inl (struct ▸ there)))
      have base : w ∈ (typeWords type).filter fun w => w ≠ "const" && w ≠ "struct" :=
        List.mem_filter.mpr ⟨inside, by simp [const, struct]⟩
      exact .inr (.inr (.inr (Text.subset_spaced base there)))
  · rw [List.eq_of_mem_replicate star]
    exact .inl rfl

end Mapping

end ScriptGlue
