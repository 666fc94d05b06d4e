import ScriptGlue.Proofs.Text.CaseMapping

/-!
# Camel case word by word

Camel case joins the words between underscores: the first letter of the first word is lowered, and
that of each further word is raised. Behind a stem of small letters the first word stays as it is,
and so does a whole name that is in camel case already.
-/
namespace ScriptGlue.Text

/-- The words of a name: what stands between underscores, which may be nothing. -/
def nameWords (s : List Char) : List (List Char) := s.splitOn '_'

/-- A word with its first letter raised. -/
def raised : List Char → List Char
  | [] => []
  | c :: r => upperChar c ++ r

/-- A word with its first letter lowered. -/
def lowered : List Char → List Char
  | [] => []
  | c :: r => lowerChar c ++ r

/-- Words in one piece: each is raised but the first, which is treated in a way of its own. -/
def joined (first : List Char → List Char) : List (List Char) → List Char
  | [] => []
  | w :: ws => first w ++ ws.flatMap raised

theorem nameWords_underscore (r : List Char) : nameWords ('_' :: r) = [] :: nameWords r := by
  rw [nameWords, List.splitOn, List.splitOnP_cons_eq_if_modifyHead, if_pos (by decide)]
  rfl

theorem nameWords_other {c : Char} (other : c ≠ '_') (r : List Char) :
    nameWords (c :: r) = (nameWords r).modifyHead (c :: ·) := by
  rw [nameWords, List.splitOn, List.splitOnP_cons_eq_if_modifyHead, if_neg (by simpa using other)]
  rfl

theorem joined_raised (words : List (List Char)) : joined raised words = words.flatMap raised := by
  cases words <;> rfl

/-- What becomes of a name from a place on, where the first word is raised or kept. -/
theorem raiseAfterUnderscore_eq (s : List Char) (raise : Bool) :
    raiseAfterUnderscore raise s = joined (if raise then raised else id) (nameWords s) := by
  fun_induction raiseAfterUnderscore raise s with
  | case1 raise => cases raise <;> rfl
  | case2 raise r ih =>
    rw [ih, if_pos rfl, nameWords_underscore, joined_raised, joined]
    cases raise <;> rfl
  | case3 raise c r noUnderscore ih =>
    have other : c ≠ '_' := by simpa using noUnderscore
    rw [ih, nameWords_other other]
    cases words : nameWords r with
    | nil => exact absurd words (List.splitOn_ne_nil '_' r)
    | cons w ws => cases raise <;> simp [joined, raised]

/-- The camel case of a name joins its words, the first of which is lowered. -/
theorem camelCase_eq (name : String) :
    camelCase name = String.ofList (joined lowered (nameWords name.toList)) := by
  rw [camelCase]
  congr 1
  split
  · rename_i empty
    rw [empty]
    rfl
  · rename_i r whole
    rw [whole, raiseAfterUnderscore_eq, nameWords_underscore, if_pos rfl, joined_raised]
    rfl
  · rename_i c r noUnderscore whole
    have other : c ≠ '_' := by simpa using noUnderscore
    rw [whole, raiseAfterUnderscore_eq, nameWords_other other]
    cases words : nameWords r with
    | nil => exact absurd words (List.splitOn_ne_nil '_' r)
    | cons w ws => simp [joined, lowered]

/-- What has no underscores is part of the first word. -/
theorem nameWords_append {s : List Char} (plain : '_' ∉ s) (r : List Char) :
    nameWords (s ++ r) = (nameWords r).modifyHead (s ++ ·) := by
  induction s with
  | nil =>
    rw [List.nil_append]
    cases nameWords r <;> rfl
  | cons c s ih =>
    have other : c ≠ '_' := fun same => plain (same ▸ List.mem_cons_self)
    have later : '_' ∉ s := fun member => plain (List.mem_cons_of_mem _ member)
    rw [List.cons_append, nameWords_other other, ih later, List.modifyHead_modifyHead]
    rfl

theorem nameWords_plain {s : List Char} (plain : '_' ∉ s) : nameWords s = [s] := by
  have whole := nameWords_append plain []
  have none : nameWords [] = [[]] := rfl
  rwa [none, List.modifyHead_cons, List.append_nil] at whole

/-- Behind a stem of small letters the first word is kept. -/
theorem camelCase_stem {stem : String} (ne : stem.toList ≠ [])
    (small : lowered stem.toList = stem.toList) (plain : '_' ∉ stem.toList) (name : String) :
    camelCase (stem ++ name) =
      String.ofList (stem.toList ++ joined id (nameWords name.toList)) := by
  obtain ⟨c, s, letters⟩ := List.exists_cons_of_ne_nil ne
  rw [camelCase_eq, String.toList_append, nameWords_append plain]
  rw [letters, lowered] at small
  cases words : nameWords name.toList with
  | nil => exact absurd words (List.splitOn_ne_nil '_' name.toList)
  | cons w ws =>
    rw [letters, List.modifyHead_cons, joined, joined, List.cons_append, lowered,
      ← List.append_assoc, small, List.append_assoc]
    rfl

theorem lowerChar_ascii_lower : ∀ n : Fin 128,
    lowerChar (Char.ofNat n).toLower = [(Char.ofNat n).toLower] := by
  decide

/-- The first letter of a name in camel case is small, unless the name starts with an underscore or
beyond ASCII. -/
theorem lowered_camelCase {name : String}
    (first : ∀ c ∈ name.toList.head?, c.toNat < 128 ∧ c ≠ '_') :
    lowered (camelCase name).toList = (camelCase name).toList := by
  rw [camelCase, String.toList_ofList]
  split
  · rfl
  · rename_i r whole
    exact absurd rfl (first '_' (by rw [whole]; rfl)).2
  · rename_i c r _ whole
    have ascii := (first c (by rw [whole]; rfl)).1
    have small := lowerChar_ascii_lower ⟨c.toNat, ascii⟩
    rw [Char.ofNat_toNat] at small
    rw [lowerChar, if_pos ascii, List.singleton_append, lowered, small, List.singleton_append]

/-- Camel case of camel case is the same, for names that start with a letter or a digit of ASCII. -/
theorem camelCase_camelCase {name : String}
    (first : ∀ c ∈ name.toList.head?, c.toNat < 128 ∧ c ≠ '_') :
    camelCase (camelCase name) = camelCase name := by
  rw [camelCase_eq (camelCase name), nameWords_plain (underscore_not_mem_camelCase name), joined,
    List.flatMap_nil, List.append_nil, lowered_camelCase first, String.ofList_toList]

end ScriptGlue.Text
