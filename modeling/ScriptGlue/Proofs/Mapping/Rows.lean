import ScriptGlue.Mapping.Conversion
import ScriptGlue.Proofs.Source.Word

/-!
# What rows convert to

A type is mapped by one row of three tables, so what holds of every row holds of every conversion.
Filling in an expression takes nothing from it but the marks, so a call stays a call: only a vector
is converted to a variable.
-/
namespace ScriptGlue

theorem mem_of_lookup {α β : Type} [BEq α] [LawfulBEq α] {key : α} {l : List (α × β)} {b : β}
    (found : l.lookup key = some b) : (key, b) ∈ l := by
  obtain ⟨before, after, rfl, -⟩ := List.lookup_eq_some_iff.mp found
  simp

namespace Text

/-- A character that is not part of the pattern stays. -/
theorem mem_replaceChars {c : Char} {pat new s : List Char} (kept : c ∉ pat) (member : c ∈ s) :
    c ∈ replaceChars pat new s := by
  fun_induction replaceChars pat new s with
  | case1 => cases member
  | case2 d r found ih =>
    obtain ⟨rest, whole⟩ := List.isPrefixOf_iff_prefix.mp found.2
    rw [← whole] at member
    rw [← whole, List.drop_left] at ih ⊢
    rcases List.mem_append.mp member with inside | behind
    · exact absurd inside kept
    · exact List.mem_append_right _ (ih behind)
  | case3 d r other ih =>
    rcases List.mem_cons.mp member with rfl | behind
    · exact List.mem_cons_self
    · exact List.mem_cons_of_mem _ (ih behind)

/-- Without the first character of the pattern there is nothing to replace. -/
theorem replaceChars_of_not_mem {c : Char} {pat new s : List Char} (absent : c ∉ s) :
    replaceChars (c :: pat) new s = s := by
  induction s with
  | nil => rw [replaceChars]
  | cons d r ih =>
    have other : (c :: pat).isPrefixOf (d :: r) = false := by
      have differs : (c == d) = false := beq_eq_false_iff_ne.mpr fun same =>
        absent (same ▸ List.mem_cons_self)
      rw [List.isPrefixOf, differs, Bool.false_and]
    rw [replaceChars, if_neg (by simp [other]),
      ih fun member => absent (List.mem_cons_of_mem _ member)]

end Text

namespace Mapping

/-- A row that is found stands in one of the three tables. -/
theorem row?_cases {type : String} {row : Row} (found : row? type = some row) :
    (∃ basic, (canonical type, basic) ∈ basicRows ∧ row = .basic basic) ∨
      (∃ record, (baseName type, record) ∈ recordRows ∧ row = .record record) ∨
      ∃ pointer, (baseName type, pointer) ∈ pointerRows ∧ row = .pointer pointer := by
  unfold row? at found
  dsimp only at found
  split at found
  · rename_i basic here
    cases found
    exact .inl ⟨_, mem_of_lookup here, rfl⟩
  · split at found
    · cases found
    · split at found
      · rename_i record here
        cases found
        exact .inr (.inl ⟨_, mem_of_lookup here, rfl⟩)
      · split at found
        · obtain ⟨pointer, here, rfl⟩ := Option.map_eq_some_iff.mp found
          exact .inr (.inr ⟨_, mem_of_lookup here, rfl⟩)
        · cases found

/-- A character that is not part of a mark stays in an expression. -/
theorem mem_fill {c : Char} {template value name type : String}
    (kept : ∀ mark ∈ ["{v}", "{n}", "{t}"], c ∉ mark.toList) (member : c ∈ template.toList) :
    c ∈ (fill template value name type none).toList := by
  simp only [fill, Text.replace, String.toList_ofList]
  apply Text.mem_replaceChars (kept "{t}" (by simp))
  apply Text.mem_replaceChars (kept "{n}" (by simp))
  exact Text.mem_replaceChars (kept "{v}" (by simp)) member

/-- A vector is converted to the variable that is named after the argument. -/
theorem toNative_vector {type value name : String} (vector : canonical type = "vec3_t")
    (valid : isIdentifier name = true) :
    (toNative type value name).value.expr = s!"{name}_vec" := by
  have found :
      row? type = some (.basic ⟨"{n}_vec", "utils::vect2js(isolate, {v})", "number[]"⟩) := by
    have here : basicRows.lookup "vec3_t" =
        some ⟨"{n}_vec", "utils::vect2js(isolate, {v})", "number[]"⟩ := by decide
    rw [row?, vector, here]
  have unmarked : '{' ∉ (name ++ "_vec").toList := by
    rw [String.toList_append, List.mem_append, not_or]
    refine ⟨fun member => ?_, by decide⟩
    have inside := isIdentRest_of_mem valid member
    exact absurd inside (by decide)
  have value_mark : Text.replace "{n}_vec" "{v}" value = "{n}_vec" := by
    simp [Text.replace, Text.replaceChars]
  have name_mark : Text.replace "{n}_vec" "{n}" name = name ++ "_vec" := by
    simp [Text.replace, Text.replaceChars]
  rw [toNative, found]
  have marks : "{t}".toList = ['{', 't', '}'] := rfl
  simp only [Logged.value_pure, fill, value_mark, name_mark]
  rw [Text.replace, marks, Text.replaceChars_of_not_mem unmarked, String.ofList_toList]
  rfl

/-- The expressions that rows share call a function. -/
theorem paren_mem_shared : ∀ template ∈ [stringIn, intIn, uintIn, numberIn, pointerIn],
    '(' ∈ template.toList := by
  decide

/-- All other conversions call something or mark a type without a row. -/
theorem toNative_calls {type : String} (other : canonical type ≠ "vec3_t") (value name : String) :
    ∃ c ∈ ['(', '/'], c ∈ (toNative type value name).value.expr.toList := by
  obtain ⟨string, int, uint, number, address⟩ : _ ∧ _ ∧ _ ∧ _ ∧ _ := by
    simpa only [List.forall_mem_cons, List.forall_mem_nil, and_true] using paren_mem_shared
  have basic : ∀ pair ∈ basicRows, pair.1 ≠ "vec3_t" →
      ∃ c ∈ ['(', '/'], c ∈ pair.2.toNative.toList := by
    simp [basicRows, string, int, uint, number, address]
  have pointer : ∀ pair ∈ pointerRows, ∃ c ∈ ['(', '/'], c ∈ pair.2.toNative.toList := by
    simp [pointerRows, address]
  have kept : ∀ c ∈ ['(', '/'], ∀ mark ∈ ["{v}", "{n}", "{t}"], c ∉ mark.toList := by decide
  unfold toNative
  cases found : row? type with
  | none => exact ⟨'/', by simp, by simp [toString]⟩
  | some row =>
    rcases row?_cases found with ⟨row, member, rfl⟩ | ⟨row, member, rfl⟩ | ⟨row, member, rfl⟩
    · obtain ⟨c, listed, inside⟩ := basic _ member other
      exact ⟨c, listed, mem_fill (kept c listed) inside⟩
    · refine ⟨'(', by simp, ?_⟩
      dsimp only [Logged.value_pure]
      split <;> simp [toString]
    · obtain ⟨c, listed, inside⟩ := pointer _ member
      exact ⟨c, listed, mem_fill (kept c listed) inside⟩

end Mapping

end ScriptGlue
