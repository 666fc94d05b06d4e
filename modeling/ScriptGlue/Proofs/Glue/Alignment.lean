import ScriptGlue.Glue.Typing
import ScriptGlue.Proofs.Glue.CallText
import ScriptGlue.Proofs.Glue.Raising

/-!
# Handlers, bindings and types agree on arguments

Three generators walk three lists: the parameters of the function, the folded arguments that
listeners get, and those that callers pass, which lack the trace result. For a function whose
parameters have distinct names, the text of its handler and that of its binding follow the folded
arguments in order, and its types list them.
-/
namespace ScriptGlue

open Code Mapping

namespace Declaration

/-- A parameter that a trace result can be written to. -/
def TakesTrace (p : Parameter) : Prop :=
  canonical p.type = "TraceResult*" ∧ isConstType p.type = false

/-- How the artifacts of one function refer to its arguments: the types list them in order, the
native call passes each parameter the way it has to, what is set up for it is taken from the place
of its owner, and the handler hands on the folded arguments in order. -/
structure ArgumentsAgree (g : GlueSettings) (table : Table) (phase : Phase) (d : Declaration) :
    Prop where
  /-- The trace result is written to the first parameter that takes one. -/
  trace : ∀ p, d.traceResult? = some p ↔ d.returnsVoid = true ∧ TakesTrace p ∧
    ∃ before after, d.fixed = before ++ p :: after ∧ ∀ q ∈ before, ¬ TakesTrace q
  api_params : (d.apiTyping g table).params =
    d.passedArgs.map fun a => ⟨scriptSafeName a.name, declaredType a.type, a.type⟩
  api_rest : (d.apiTyping g table).rest = d.isVariadic
  /-- The binding is written with one text for each parameter, and its call stands in the line that
  hands on the result. -/
  call : ∃ (texts remarks : List String) (definition : FunctionDef),
    List.Forall₂ d.PassedText d.fixed texts ∧
    (d.binding g table).value.definition = some definition ∧
    definition.source = Text.unlines (remarks.map ("// " ++ ·) ++ d.bindingLines table texts) ∧
    (canonical d.returnType ≠ Argument.variadicType →
      '{' ∉ (d.nativeCall table texts).toList →
      ∃ line ∈ d.resultLines (d.nativeCall table texts),
        (d.nativeCall table texts).toList <:+: line.toList)
  event : ∃ h, (d.eventSlot g table phase).value = .handler h ∧
    (h.definition g.scriptNamespace).source = Text.unlines
      (d.handlerLines g table phase (d.scriptArgs.map fun a => scriptSafeName a.name)
        (d.scriptArgs.map fun a => ⟨a.listenerExpr, a.name, a.type⟩)) ∧
    ∀ a ∈ d.scriptArgs, canonical a.type ≠ Argument.variadicType → '{' ∉ a.name.toList →
      a.name.toList <:+: a.listenerExpr.toList
  event_params : ∃ s, d.eventTyping? g table phase = some s ∧ s.rest = d.isVariadic ∧
    s.params = d.scriptArgs.map fun a => ⟨scriptSafeName a.name, declaredType a.type, a.type⟩

/-- The trace result is the first parameter that takes one, in a function without a result. -/
theorem traceResult?_eq_some_iff (d : Declaration) (p : Parameter) :
    d.traceResult? = some p ↔ d.returnsVoid = true ∧ TakesTrace p ∧
      ∃ before after, d.fixed = before ++ p :: after ∧ ∀ q ∈ before, ¬ TakesTrace q := by
  unfold traceResult? TakesTrace
  by_cases void : d.returnsVoid = true
  · simp [void, List.find?_eq_some_iff_append, and_assoc, imp_iff_not_or]
  · simp [void]

theorem typed_scriptArgs (d : Declaration) :
    d.scriptArgs.map (·.typed) =
      d.scriptArgs.map fun a => ⟨scriptSafeName a.name, declaredType a.type, a.type⟩ := by
  apply List.map_congr_left
  intro a member
  rw [ScriptArg.typed, foldArgs_scriptName member]

theorem typed_passedArgs (d : Declaration) :
    d.passedArgs.map (·.typed) =
      d.passedArgs.map fun a => ⟨scriptSafeName a.name, declaredType a.type, a.type⟩ := by
  apply List.map_congr_left
  intro a member
  rw [ScriptArg.typed, foldArgs_scriptName (List.mem_filter.mp member).1]

/-- The call of a binding stands in the line that hands on its result. -/
theorem exists_resultLine {d : Declaration} {call : String}
    (single : canonical d.returnType ≠ Argument.variadicType) (plain : '{' ∉ call.toList) :
    ∃ line ∈ d.resultLines call, call.toList <:+: line.toList := by
  unfold resultLines
  split
  · exact ⟨_, List.mem_cons_self, [], ";".toList, by simp [toString]⟩
  · split
    · exact ⟨_, List.mem_cons_self, "const char* temp_str = ".toList, ";".toList,
        by simp [toString]⟩
    · have inside := infix_toScript single plain none
      exact ⟨_, List.mem_cons_self, inside.trans (infix_between _ _ _)⟩

/-- A binding that is not written by hand is written with the lines of its arguments. -/
theorem DistinctNames.source_bindingDef {d : Declaration} (distinct : d.DistinctNames)
    (g : GlueSettings) (table : Table) (flags : List Flag) :
    (d.bindingDef g table flags ((d.callBody table).value.1.statements d.name)).source =
      Text.unlines ((s!"{g.scriptNamespace}.{table.key}.{d.scriptName}();" ::
          flags.map fun f => s!"FLAGGED: {f.message}").map ("// " ++ ·) ++
        d.bindingLines table ((d.callBody table).value.1.args.map (·.text))) := by
  rw [FunctionDef.source_eq, FunctionDef.shown, bindingDef, distinct.callBody_statements]
  dsimp only
  rw [if_pos rfl, indented_bodyLines]
  rfl

/-- Whatever the table, the phase and the fragments of other functions, the artifacts of a readable
declaration with distinct parameter names agree on its arguments. -/
theorem arguments_agree (g : GlueSettings) (table : Table) (phase : Phase) (d : Declaration)
    (readable : d.isUnparsable = false) (distinct : d.DistinctNames)
    (generic : g.custom table d.name = none) : d.ArgumentsAgree g table phase where
  trace := d.traceResult?_eq_some_iff
  api_params := by
    simp only [apiTyping, generic, Option.bind_none, Option.getD_none, distinct.callerArgs_eq,
      typed_passedArgs]
  api_rest := by
    simp only [apiTyping, generic, Option.bind_none, Option.isNone_none, Bool.true_and]
  call := by
    have passed : List.Forall₂ d.PassedText d.fixed
        ((d.callBody table).value.1.args.map (·.text)) := by
      rw [callBody_args, List.map_map]
      exact List.forall₂_map_right_iff.mpr
        (List.forall₂_same.mpr fun p member => (distinct.callArg_passedAs member).text)
    have written : (d.binding g table).value.definition =
        some (d.bindingDef g table (d.callBody table).value.2
          ((d.callBody table).value.1.statements d.name)) :=
      binding_definition readable (by rw [generic, Option.bind_none])
    have source := distinct.source_bindingDef g table (d.callBody table).value.2
    exact ⟨_, _, _, passed, written, source, fun single plain => exists_resultLine single plain⟩
  event := by
    refine ⟨_, eventSlot_eq readable (by rw [generic, Option.bind_none]) phase, ?_,
      fun a _ => a.infix_listenerExpr⟩
    have names : listenerNames g.custom table d =
        d.scriptArgs.map fun a => scriptSafeName a.name := by
      rw [listenerNames, generic]
      exact List.map_congr_left fun a member => foldArgs_scriptName member
    rw [source_genericHandler, names]
    rfl
  event_params := by
    simp only [eventTyping?, readable, generic, Bool.false_and, Bool.false_eq_true, if_false,
      Option.bind_none, Option.isNone_none, Bool.true_and, Option.getD_none, Option.some.injEq,
      exists_eq_left', typed_scriptArgs, and_self]

/-- A trace along points that are handed over with their number, with a start, a place for the
result and further arguments. -/
def samplePathTrace : Declaration where
  name := "pfnTracePath"
  returnType := "void"
  args := [.fixed ⟨"points", "const float*", none⟩, .fixed ⟨"pointsLength", "int", none⟩,
    .fixed ⟨"start", "vec3_t", none⟩, .fixed ⟨"ptr", "TraceResult*", none⟩,
    .fixed ⟨"mode", "int", none⟩, .variadic]
  text := "void (*pfnTracePath)(const float *points, int pointsLength, vec3_t start, " ++
    "TraceResult *ptr, int mode, ...);"
  line := 1

/-- An array, its length, a vector, a trace result and further arguments all keep their places. -/
theorem arguments_agree_pathTrace :
    samplePathTrace.isUnparsable = false ∧ samplePathTrace.DistinctNames ∧
      CustomProvider.none .engine samplePathTrace.name = none ∧
      samplePathTrace.ArgumentsAgree { custom := CustomProvider.none } .engine .post :=
  ⟨by decide, by decide, rfl,
    arguments_agree { custom := CustomProvider.none } .engine .post samplePathTrace (by decide)
      (by decide) rfl⟩

end Declaration

end ScriptGlue
