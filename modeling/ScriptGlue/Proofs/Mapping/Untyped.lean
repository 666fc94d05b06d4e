import ScriptGlue.Glue.Handler
import ScriptGlue.Proofs.Mapping.Qualifiers

/-!
# Rows of untyped memory

Some pointers come to scripts as untyped memory, which must not be constant. Whether it is cast is
told by what the expression starts with: without a row it is always cast, and with one it is made of
the value as it stands, so it is cast exactly if the value is. No other expression starts like it.
-/
namespace ScriptGlue.Mapping

/-- If an expression makes untyped memory of something, it casts that to be mutable. -/
def HasCast (expr : String) : Prop :=
  ∀ e, expr = externalLead ++ e → Text.startsWith e "(void*)" = true

/-- What single pointers lead to whose values are untyped memory, by base name. -/
def untypedNames : List String := ["void", "CRC32_t", "FILE"]

def Row.isExternal : Row → Bool
  | basic row => row.toScript == externalOut
  | record _ => false
  | pointer row => row.toScript == externalOut

theorem basicRows_external : ∀ pair ∈ basicRows,
    pair.2.toScript = externalOut ∨ apart (leadOf pair.2.toScript) externalLead.toList = true := by
  simp only [basicRows, List.forall_mem_cons, List.not_mem_nil, false_implies, implies_true,
    and_true, true_and, true_or]
  and_intros
  all_goals exact .inr (apart_spelled rfl rfl rfl)

/-- A pointer row makes untyped memory, or its expression starts in another way. -/
theorem pointerRows_external : ∀ pair ∈ pointerRows,
    pair.2.toScript = externalOut ∧ pair.1 ∈ untypedNames ∨
      apart (leadOf pair.2.toScript) externalLead.toList = true ∧ pair.1 ∉ untypedNames := by
  simp only [pointerRows, List.forall_mem_cons, List.not_mem_nil, false_implies, implies_true,
    and_true, true_and]
  and_intros
  all_goals first
    | exact .inl (by decide)
    | exact .inr ⟨apart_spelled rfl rfl rfl, by decide⟩

/-- Untyped memory is made of the value. -/
theorem exists_fill_external {start : String} (plain : '{' ∉ start.toList)
    (value name type : String) (length : Option String) : ∃ rest,
    fill externalOut (start ++ value) name type length = externalLead ++ (start ++ rest) := by
  have spelled : externalOut = externalLead ++ "{v})" := by decide
  have valued : Text.replace "{v})" "{v}" (start ++ value) = start ++ (value ++ ")") := by
    apply String.toList_injective
    simp [Text.replace, Text.replaceChars]
  rw [spelled, fill_append (by decide)]
  simp only [fill]
  rw [valued, replace_append rfl plain, replace_append rfl plain]
  cases length with
  | none => exact ⟨_, rfl⟩
  | some l =>
    dsimp only
    rw [replace_append rfl plain]
    exact ⟨_, rfl⟩

section Rows

variable {type : String} {row : Row} {start : String}

/-- The script value of untyped memory starts with its lead and the value. -/
theorem exists_external (external : row.isExternal = true) (plain : '{' ∉ start.toList)
    (spelling value : String) (length : Option String) : ∃ rest,
    row.scriptExpr spelling (start ++ value) length = externalLead ++ (start ++ rest) := by
  cases row with
  | basic row =>
    rw [Row.scriptExpr, beq_iff_eq.mp external]
    exact exists_fill_external plain value "" spelling none
  | record => cases external
  | pointer row =>
    have memory : row.toScript = externalOut := beq_iff_eq.mp external
    simp only [Row.scriptExpr]
    rw [memory]
    exact exists_fill_external plain value "" spelling _

/-- What is counted is no untyped memory. -/
theorem isExternal_of_counted {pointer : PointerRow}
    (counted : takesLength pointer.toScript = true) : (Row.pointer pointer).isExternal = false := by
  refine beq_eq_false_iff_ne.mpr fun external => ?_
  have takes : takesLength externalOut = false := takesLength_spelled rfl rfl
  rw [external, takes] at counted
  cases counted

/-- No other row has an expression with that lead. -/
theorem ne_external (found : row? type = some row) (other : row.isExternal = false)
    (value : String) (length : Option String) (e : String) :
    row.scriptExpr (canonical type) value length ≠ externalLead ++ e := by
  rcases row?_cases found with ⟨basic, member, rfl⟩ | ⟨record, -, rfl⟩ | ⟨pointer, member, rfl⟩
  · have differ := (basicRows_external _ member).resolve_left (beq_eq_false_iff_ne.mp other)
    exact ne_append_of_apart differ (leadOf_prefix_fill basic.toScript value "" _ none) e
  · have call : ∃ rest, wrap record (canonical type) value = "structures::wrap" ++ rest := by
      unfold wrap
      dsimp only [toString]
      exact ⟨_, by rw [String.append_assoc, String.append_assoc, String.append_assoc]⟩
    obtain ⟨rest, whole⟩ := call
    have starts : "structures::wrap".toList <+: (wrap record (canonical type) value).toList := by
      rw [whole, String.toList_append]
      exact List.prefix_append _ _
    exact ne_append_of_apart (by decide) starts e
  · rcases pointerRows_external _ member with ⟨memory, -⟩ | ⟨differ, -⟩
    · exact absurd memory (beq_eq_false_iff_ne.mp other)
    · exact ne_append_of_apart differ (leadOf_prefix_fill pointer.toScript value "" _ _) e

theorem hasCast_external_iff {rest : String} :
    HasCast (externalLead ++ rest) ↔ Text.startsWith rest "(void*)" = true := by
  constructor
  · intro cast
    exact cast rest rfl
  · intro cast e same
    rwa [← (String.append_right_inj externalLead).mp same]

/-- What has no row is cast. -/
theorem hasCast_unmapped (found : row? type = none) (value : String) (length : Option String) :
    HasCast (toScript type value length).value.expr := by
  have lead : s!"v8::External::New(isolate, (void*){value})" =
      externalLead ++ ("(void*)" ++ (value ++ ")")) := by
    apply String.toList_injective
    simp [toString, externalLead]
  rw [toScript_unmapped found, lead, String.append_assoc, hasCast_external_iff, String.append_assoc]
  exact Text.startsWith_append _ _

/-- What is cast before it is converted stays so. -/
theorem hasCast_of_cast (type value : String) (length : Option String) :
    HasCast (toScript type ("(void*)" ++ value) length).value.expr := by
  cases found : row? type with
  | none => exact hasCast_unmapped found _ length
  | some row =>
    rw [toScript_eq found]
    cases external : row.isExternal with
    | true =>
      have plain : '{' ∉ "(void*)".toList := by decide
      obtain ⟨rest, expr⟩ := exists_external external plain (canonical type) value length
      dsimp only
      rw [expr, hasCast_external_iff]
      exact Text.startsWith_append _ rest
    | false => exact fun e same => absurd same (ne_external found external _ length e)

/-! ### Constants -/

/-- Pointers to constants that are listed by their spelling are no untyped memory. -/
theorem basicRows_constants : ∀ pair ∈ basicRows, 0 < pointerDepth pair.1 →
    (∀ w ∈ typeWords pair.1, isIdentifier w = true) ∧
      ("const" ∈ typeWords pair.1 →
        pair.2.toScript ≠ externalOut ∧ baseName pair.1 ∉ untypedNames) := by
  decide +kernel

theorem untyped_listed : ∀ name ∈ untypedNames,
    recordRows.lookup name = none ∧ pointerRows.lookup name ≠ none := by
  decide

/-- These pointers have rows. -/
theorem row?_ne_none_of_untyped (single : pointerDepth type = 1)
    (name : baseName type ∈ untypedNames) : row? type ≠ none := by
  intro unmapped
  have stage := stage_row? type
  rw [unmapped] at stage
  cases stage with
  | deep other depth =>
    rw [pointerDepth_canonical, single] at depth
    omega
  | unlisted other depth noRecord noPointer =>
    rw [pointerDepth_canonical, baseName_canonical] at noPointer
    exact (untyped_listed _ name).2 ((lookup_none_iff distinct_pointerRows).mpr (noPointer single))

variable (const : isConstType type = true) (pointer : isPointerType type = true)
include const pointer

/-- A constant is handed over as untyped memory by the row of three kinds of pointers. -/
theorem isExternal_iff (found : row? type = some row) :
    row.isExternal = true ↔ pointerDepth type = 1 ∧ baseName type ∈ untypedNames := by
  rw [isPointerType_iff] at pointer
  rcases row?_cases found with ⟨basic, member, rfl⟩ | ⟨record, member, rfl⟩ | ⟨memory, member, rfl⟩
  · obtain ⟨valid, other⟩ := basicRows_constants _ member (by simpa using pointer)
    rw [typeWords_canonical] at valid other
    obtain ⟨noMemory, noName⟩ := other ((isConstType_iff valid).mp const)
    rw [baseName_canonical] at noName
    exact iff_of_false (fun external => noMemory (beq_iff_eq.mp external)) fun both => noName both.2
  · refine iff_of_false Bool.false_ne_true fun both => ?_
    have unlisted := (untyped_listed _ both.2).1
    exact (lookup_none_iff distinct_recordRows).mp unlisted record member
  · have single := (single_of_pointer found).1
    rcases pointerRows_external _ member with ⟨external, name⟩ | ⟨differ, name⟩
    · exact iff_of_true (beq_iff_eq.mpr external) ⟨single, name⟩
    · refine iff_of_false (fun external => ?_) fun both => name both.2
      dsimp only at differ
      rw [beq_iff_eq.mp external] at differ
      exact absurd differ (by decide)

/-- A constant that comes out of a call is cast unless a row makes untyped memory of it. -/
theorem hasCast_call_iff (function : String) :
    HasCast (toScript type ("(*" ++ function) none).value.expr ↔
      ¬ (pointerDepth type = 1 ∧ baseName type ∈ untypedNames) := by
  cases found : row? type with
  | none =>
    exact iff_of_true (hasCast_unmapped found _ none) fun both =>
      row?_ne_none_of_untyped both.1 both.2 found
  | some row =>
    rw [toScript_eq found, ← isExternal_iff const pointer found]
    cases external : row.isExternal with
    | true =>
      have plain : '{' ∉ "(*".toList := by decide
      obtain ⟨rest, expr⟩ := exists_external external plain (canonical type) function none
      dsimp only
      rw [expr, hasCast_external_iff, Text.startsWith, String.toList_append]
      exact iff_of_false (by simp) (by simp)
    | false =>
      exact iff_of_true (fun e same => absurd same (ne_external found external _ none e)) (by simp)

end Rows

end ScriptGlue.Mapping
