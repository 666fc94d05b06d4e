import ScriptGlue.Proofs.Glue.Flags
import ScriptGlue.Proofs.Mapping.Untyped

/-!
# Untyped memory

Scripts get untyped memory as a pointer that must not be to a constant. A handler looks at the
expression for an argument and converts a cast one instead where it has to, so listeners never get a
constant. A binding converts the result of its call as it is, and the rows of pointers do not cast.
-/
namespace ScriptGlue

open Code Mapping

namespace ScriptArg

/-- Listeners get untyped memory of a constant only with a cast. -/
theorem hasCast_eventValue (a : ScriptArg) (const : isConstType a.type = true) :
    HasCast a.eventValue.value.1.expr := by
  simp only [eventValue, Logged.value_bind]
  split
  · exact hasCast_of_cast a.type a.name a.knownLength
  · rename_i plain
    rw [const, Bool.true_and, Bool.and_eq_true, not_and_or, Bool.not_eq_true',
      Bool.not_eq_false] at plain
    -- what is not converted again has no row, or no untyped memory is made of it
    rcases plain with unknown | other
    · rw [Conversion.isUnknown, beq_iff_eq, toScript_source] at unknown
      cases found : row? a.type with
      | none => exact hasCast_unmapped found a.name a.knownLength
      | some row =>
        rw [found] at unknown
        exact absurd unknown (source_ne_unknown row)
    · intro e same
      change (toScript a.type a.name a.knownLength).value.expr = externalLead ++ e at same
      rw [same] at other
      exact absurd (Text.startsWith_append _ e) other

end ScriptArg

namespace Declaration

/-- A pointer to a constant. -/
def IsConstPointer (type : String) : Prop := isConstType type = true ∧ isPointerType type = true

/-- The handler of a function makes untyped memory of its arguments, as far as they are pointers to
constants, with a cast. -/
def EventExternals (d : Declaration) (g : GlueSettings) (table : Table) (phase : Phase) : Prop :=
  ∃ h, (d.eventSlot g table phase).value = .handler h ∧
    h.dispatch.raised = d.scriptArgs.map (fun a => a.eventValue.value.1) ∧
    ∀ index v, h.dispatch.raised[index]? = some v →
      Dispatch.valueLine index v ∈ h.statements ∧ (IsConstPointer v.type → HasCast v.expr)

/-- So does the binding of its result. -/
def ResultExternal (d : Declaration) (g : GlueSettings) (table : Table) : Prop :=
  ∃ body flags, (d.callBody table).value = (body, flags) ∧
    (d.binding g table).value.definition =
      some (d.bindingDef g table flags (body.statements d.name)) ∧
    ∀ expr, body.outcome = .value expr →
      s!"info.GetReturnValue().Set({expr});" ∈ body.statements d.name ∧
        (IsConstPointer d.returnType → HasCast expr)

theorem valueLine_mem_statements {h : Handler} {index : Nat} {v : EventValue}
    (place : h.dispatch.raised[index]? = some v) : Dispatch.valueLine index v ∈ h.statements := by
  unfold Handler.statements
  cases dispatch : h.dispatch with
  | custom | bare => simp [dispatch, Dispatch.raised] at place
  | values vs =>
    have here : Dispatch.valueLine index v ∈ vs.mapIdx Dispatch.valueLine := by
      rw [dispatch] at place
      refine List.mem_of_getElem? (i := index) ?_
      rw [List.getElem?_mapIdx, show vs[index]? = some v from place]
      rfl
    simp [Dispatch.statements, here]

theorem result_mem_statements {body : CallBody} {expr : String} (value : body.outcome = .value expr)
    (function : String) : s!"info.GetReturnValue().Set({expr});" ∈ body.statements function := by
  simp [CallBody.statements, value, Outcome.statements]

/-- Whatever its arguments, a handler makes untyped memory of mutable pointers only. -/
theorem eventExternals {g : GlueSettings} {table : Table} {d : Declaration}
    (readable : d.isUnparsable = false)
    (generic : (g.custom table d.name).bind (·.event) = none) (phase : Phase) :
    d.EventExternals g table phase := by
  obtain ⟨h, slot, dispatch, -⟩ := eventSlot_dispatch readable generic phase
  have raised : h.dispatch.raised = d.scriptArgs.map fun a => a.eventValue.value.1 := by
    rw [dispatch, raised_dispatch]
  refine ⟨h, slot, raised, fun index v place => ⟨valueLine_mem_statements place, ?_⟩⟩
  intro constant
  rw [raised] at place
  obtain ⟨a, -, rfl⟩ := List.mem_map.mp (List.mem_of_getElem? place)
  rw [a.type_eventValue] at constant
  exact a.hasCast_eventValue constant.1

/-- Calls go through pointers in a table. -/
theorem exists_callText (table : Table) (function : String) (args : List CallArg) :
    ∃ rest, callText (table.callee function) args = "(*" ++ rest := by
  have dll : "(*gpGamedllFuncs->dllapi_table->" = "(*" ++ "gpGamedllFuncs->dllapi_table->" := by
    decide
  have engine : "(*g_engfuncs." = "(*" ++ "g_engfuncs." := by decide
  have lead : ∃ rest, table.callee function = "(*" ++ rest := by
    cases table with
    | dll =>
      dsimp only [Table.callee, toString]
      rw [dll, String.append_assoc, String.append_assoc]
      exact ⟨_, rfl⟩
    | engine =>
      dsimp only [Table.callee, toString]
      rw [engine, String.append_assoc, String.append_assoc]
      exact ⟨_, rfl⟩
  obtain ⟨rest, spelled⟩ := lead
  rw [callText, spelled]
  simp only [toString, String.append_assoc]
  exact ⟨_, rfl⟩

theorem outcome_callBody (d : Declaration) (table : Table) : ∃ rest,
    (d.callBody table).value.1.outcome = (d.outcome ("(*" ++ rest)).value.1 := by
  simp only [callBody, Logged.value_bind, Logged.value_pure]
  obtain ⟨rest, call⟩ := exists_callText table d.name
    ((Logged.forEach d.callArg d.fixed).value.map (·.1))
  exact ⟨rest, by rw [call]⟩

/-- A result that is a pointer to a constant is converted, or else it is text. -/
theorem outcome_constant {d : Declaration} (pointer : isPointerType d.returnType = true)
    (call : String) : (baseName d.returnType = "char" ∧ (d.outcome call).value.1 = .text) ∨
      (d.outcome call).value.1 = .value (toScript d.returnType call none).value.expr := by
  have returns : d.returnsVoid = false := by
    rw [returnsVoid, beq_eq_false_iff_ne]
    intro void
    rw [void] at pointer
    exact absurd pointer (by decide)
  unfold outcome
  rw [returns, if_neg Bool.false_ne_true]
  split
  · rename_i text
    refine .inl ⟨?_, rfl⟩
    rw [← baseName_canonical]
    rcases isText_iff.mp text with spelled | spelled <;> rw [spelled] <;> decide +kernel
  · exact .inr rfl

/-- Bindings return untyped memory of constants only with a cast, unless one of three kinds of
pointers is returned. -/
theorem resultExternal_iff {g : GlueSettings} {table : Table} {d : Declaration}
    (readable : d.isUnparsable = false)
    (generic : (g.custom table d.name).bind (·.apiBody) = none) : d.ResultExternal g table ↔
      ¬ (isConstType d.returnType = true ∧ pointerDepth d.returnType = 1 ∧
        baseName d.returnType ∈ untypedNames) := by
  obtain ⟨function, outcome⟩ := d.outcome_callBody table
  constructor
  · rintro ⟨body, flags, call, -, cast⟩ ⟨const, single, name⟩
    have pointer : isPointerType d.returnType = true := isPointerType_iff.mpr (by omega)
    rw [call] at outcome
    rcases outcome_constant pointer ("(*" ++ function) with ⟨char, -⟩ | value
    · rw [char] at name
      exact absurd name (by decide)
    · have casts := (cast _ (outcome.trans value)).2 ⟨const, pointer⟩
      exact (hasCast_call_iff const pointer function).mp casts ⟨single, name⟩
  · intro other
    refine ⟨(d.callBody table).value.1, _, rfl, binding_definition readable generic, ?_⟩
    intro expr value
    refine ⟨result_mem_statements value d.name, fun constant => ?_⟩
    rw [outcome] at value
    rcases outcome_constant constant.2 ("(*" ++ function) with ⟨-, text⟩ | converted
    · rw [text] at value
      cases value
    · rw [converted] at value
      obtain rfl := Outcome.value.inj value
      exact (hasCast_call_iff constant.1 constant.2 function).mpr fun both =>
        other ⟨constant.1, both⟩

/-- Where nothing is written by hand, untyped memory is cast for listeners in any case, and for
scripts unless a constant of one of three kinds is returned. -/
theorem externals_mutable (g : GlueSettings) (table : Table) (phase : Phase) {d : Declaration}
    (readable : d.isUnparsable = false) (generic : g.custom table d.name = none) :
    d.EventExternals g table phase ∧ (d.ResultExternal g table ↔
      ¬ (isConstType d.returnType = true ∧ pointerDepth d.returnType = 1 ∧
        baseName d.returnType ∈ untypedNames)) :=
  ⟨eventExternals readable (by rw [generic, Option.bind_none]) phase,
    resultExternal_iff readable (by rw [generic, Option.bind_none])⟩

/-- A function that takes and returns constants. -/
def sampleOwner : Declaration where
  name := "pfnOwner"
  returnType := "const edict_t *"
  args := [.fixed ⟨"data", "const void *", none⟩]
  text := "const edict_t *(*pfnOwner)(const void *data);"
  line := 1

theorem externals_mutable_owner :
    ofLine sampleOwner.text 1 = pure sampleOwner ∧ sampleOwner.isUnparsable = false ∧
      CustomProvider.none .engine sampleOwner.name = none ∧
      sampleOwner.EventExternals { custom := CustomProvider.none } .engine .base ∧
      sampleOwner.ResultExternal { custom := CustomProvider.none } .engine := by
  obtain ⟨event, result⟩ := externals_mutable { custom := CustomProvider.none } .engine .base
    (d := sampleOwner) (by decide) rfl
  exact ⟨by decide +kernel, by decide, rfl, event, result.mpr (by decide +kernel)⟩

/-- A function that returns untyped memory that must not be written. -/
def sampleData : Declaration where
  name := "pfnGetData"
  returnType := "const void *"
  args := []
  text := "const void *(*pfnGetData)(void);"
  line := 1

/-- Its binding hands the constant to scripts as it is. -/
theorem not_mutable_data :
    ofLine sampleData.text 1 = pure sampleData ∧ sampleData.isUnparsable = false ∧
      (sampleData.callBody .engine).value.1.outcome =
        .value "v8::External::New(isolate, (*g_engfuncs.pfnGetData)())" ∧
      ¬ sampleData.ResultExternal { custom := CustomProvider.none } .engine := by
  have outcome : (sampleData.callBody .engine).value.1.outcome =
      .value "v8::External::New(isolate, (*g_engfuncs.pfnGetData)())" := by decide +kernel
  refine ⟨by decide +kernel, by decide, outcome, ?_⟩
  rintro ⟨body, flags, call, -, cast⟩
  rw [call] at outcome
  have constant : IsConstPointer sampleData.returnType := ⟨by decide +kernel, by decide⟩
  have casts := (cast _ outcome).2 constant "(*g_engfuncs.pfnGetData)())" (by decide)
  exact absurd casts (by decide)

end Declaration

end ScriptGlue
