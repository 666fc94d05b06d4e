import ScriptGlue.Proofs.Mapping.Stages

/-!
# Values in expressions

The expression of a row asks for the value with its first mark. So a value without braces stands in
the script value that is made of it, letter for letter. The one exception is the row for further
arguments, whose expression is a remark.
-/
namespace ScriptGlue.Mapping

/-- Whether the first mark of an expression is that for the value. -/
def takesValue (template : List Char) : Bool :=
  "{v}".toList.isPrefixOf (template.dropWhile (· ≠ '{'))

theorem takesValue_spelled {s : String} {l : List Char} (spelled : s = String.ofList l)
    (takes : takesValue l = true) : takesValue s.toList = true := by
  rw [toList_spelled spelled]
  exact takes

theorem replace_value (rest value : String) :
    Text.replace ("{v}" ++ rest) "{v}" value = value ++ Text.replace rest "{v}" value := by
  apply String.toList_injective
  simp only [Text.replace, String.toList_append, String.toList_ofList]
  have mark : "{v}".toList = ['{', 'v', '}'] := rfl
  rw [mark, List.cons_append, Text.replaceChars, if_pos (by simp)]
  rfl

section

variable {template value : String} (plain : '{' ∉ value.toList)
include plain

/-- A value that is asked for first is filled in first and then stays. -/
theorem fill_value (rest name type : String) (length : Option String) :
    fill ("{v}" ++ rest) value name type length = value ++ fill rest value name type length := by
  simp only [fill]
  rw [replace_value, replace_append rfl plain, replace_append rfl plain]
  cases length with
  | none => rfl
  | some l => exact replace_append rfl plain l _

/-- A value stands where the mark for it stood. -/
theorem infix_fill (takes : takesValue template.toList = true) (name type : String)
    (length : Option String) :
    value.toList <:+: (fill template value name type length).toList := by
  obtain ⟨rest, behind⟩ := List.isPrefixOf_iff_prefix.mp takes
  have lead : '{' ∉ (String.ofList (leadOf template)).toList := by
    intro brace
    rw [leadOf, String.toList_ofList] at brace
    simpa using List.mem_takeWhile_imp brace
  have whole : template = String.ofList (leadOf template) ++ ("{v}" ++ String.ofList rest) := by
    apply String.toList_injective
    simp only [String.toList_append, String.toList_ofList]
    rw [behind, leadOf, List.takeWhile_append_dropWhile]
  rw [whole, fill_append lead, fill_value plain, String.toList_append, String.toList_append]
  exact ⟨_, _, List.append_assoc _ _ _⟩

end

theorem basicRows_takesValue : ∀ pair ∈ basicRows,
    pair.1 = "..." ∨ takesValue pair.2.toScript.toList = true := by
  simp only [basicRows, List.forall_mem_cons, List.not_mem_nil, false_implies, implies_true,
    and_true, true_or]
  and_intros
  all_goals exact .inr (takesValue_spelled rfl rfl)

theorem pointerRows_takesValue : ∀ pair ∈ pointerRows,
    takesValue pair.2.toScript.toList = true := by
  simp only [pointerRows, List.forall_mem_cons, List.not_mem_nil, false_implies, implies_true,
    and_true]
  and_intros
  all_goals exact takesValue_spelled rfl rfl

theorem infix_between (before text behind : String) :
    text.toList <:+: (before ++ text ++ behind).toList := by
  rw [String.toList_append, String.toList_append]
  exact ⟨before.toList, behind.toList, rfl⟩

theorem infix_wrap (row : RecordRow) (spelling value : String) :
    value.toList <:+: (wrap row spelling value).toList := by
  have called (arg : String) (inside : value.toList <:+: arg.toList) :
      value.toList <:+: (s!"structures::wrap{row.wrapper}(isolate, {arg})").toList :=
    inside.trans (infix_between _ arg _)
  have cast (type : String) : value.toList <:+: (s!"({type}){value}").toList :=
    ⟨s!"({type})".toList, [], by simp [toString]⟩
  unfold wrap
  dsimp only
  cases row.constCast with
  | none => exact called value (List.infix_refl _)
  | some type =>
    dsimp only
    split
    · exact called _ (cast type)
    · exact called value (List.infix_refl _)

/-- A value stands in the script value that is made of it. -/
theorem infix_toScript {type value : String} (single : canonical type ≠ "...")
    (plain : '{' ∉ value.toList) (length : Option String) :
    value.toList <:+: (toScript type value length).value.expr.toList := by
  cases found : row? type with
  | none =>
    have made : (toScript type value length).value.expr =
        s!"v8::External::New(isolate, (void*){value}) /* unknown type: {type} */" := by
      unfold toScript
      rw [found]
      rfl
    rw [made]
    exact ⟨"v8::External::New(isolate, (void*)".toList, s!") /* unknown type: {type} */".toList,
      by simp [toString]⟩
  | some row =>
    rw [toScript_eq found]
    rcases row?_cases found with ⟨basic, member, rfl⟩ | ⟨record, -, rfl⟩ | ⟨pointer, member, rfl⟩
    · have takes := (basicRows_takesValue _ member).resolve_left single
      exact infix_fill plain takes "" _ none
    · exact infix_wrap record _ value
    · exact infix_fill plain (pointerRows_takesValue _ member) "" _ _

end ScriptGlue.Mapping
