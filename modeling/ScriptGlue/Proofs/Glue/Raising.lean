import ScriptGlue.Declaration.Reading
import ScriptGlue.Glue.Handler
import ScriptGlue.Proofs.Code.Rendering
import ScriptGlue.Proofs.Mapping.Values

/-!
# The text of a handler

A handler without fragments hands on the folded arguments of its function: it counts them and sets
a value for each, in order. The lines that do so are told here from the arguments themselves.
-/
namespace ScriptGlue

open Code Mapping

/-- The values that a handler sets up for listeners, as far as no statements are written by hand. -/
def Dispatch.raised : Dispatch → List EventValue
  | custom _ | bare => []
  | values vs => vs

/-- The lines that raise an event with values; without values no function sets them up. -/
def raiseLines (event : String) (vs : List EventValue) : List String :=
  if vs = [] then [s!"event::findAndCall(\"{event}\", nullptr, 0);"]
  else
    [s!"event::findAndCall(\"{event}\", [=](v8::Isolate* isolate) \x7b",
      s!"  unsigned int v8_argCount = {vs.length};",
      s!"  v8::Local<v8::Value>* v8_args = new v8::Local<v8::Value>[{vs.length}];"] ++
    vs.mapIdx (fun index v => s!"  v8_args[{index}] = {v.expr}; // {v.name} ({v.type})") ++
    ["  return std::pair<unsigned int, v8::Local<v8::Value>*>(v8_argCount, v8_args);", "\x7d);"]

namespace ScriptArg

/-- An argument as listeners get it: the script value of its type, with the length that is known for
it. Constant untyped memory is cast first. -/
def listenerExpr (a : ScriptArg) : String :=
  let length := a.length.or (a.param.size.map toString)
  let plain := (toScript a.type a.name length).value
  if isConstType a.type = true ∧ plain.isUnknown = false ∧
      Text.startsWith plain.expr "v8::External::New(isolate, " = true then
    (toScript a.type s!"(void*){a.name}" length).value.expr
  else plain.expr

theorem eventValue_eq (a : ScriptArg) :
    a.eventValue.value.1 = ⟨a.listenerExpr, a.name, a.type⟩ := by
  have known : a.knownLength = a.length.or (a.param.size.map toString) := by
    unfold knownLength
    cases a.length <;> rfl
  simp only [eventValue, Logged.value_bind, listenerExpr, known]
  by_cases cast : isConstType a.type = true ∧
      (toScript a.type a.name (a.length.or (a.param.size.map toString))).value.isUnknown = false ∧
      Text.startsWith (toScript a.type a.name (a.length.or (a.param.size.map toString))).value.expr
        "v8::External::New(isolate, " = true
  · rw [if_pos (by simpa [externalLead, and_assoc] using cast), if_pos cast]
    rfl
  · rw [if_neg (by simpa [externalLead, and_assoc] using cast), if_neg cast]
    rfl

/-- What listeners get names the argument. -/
theorem infix_listenerExpr {a : ScriptArg} (single : canonical a.type ≠ Argument.variadicType)
    (plain : '{' ∉ a.name.toList) : a.name.toList <:+: a.listenerExpr.toList := by
  unfold listenerExpr
  dsimp only
  split
  · have cast : '{' ∉ (s!"(void*){a.name}").toList := by simpa [toString] using plain
    have named : a.name.toList <:+: (s!"(void*){a.name}").toList :=
      ⟨"(void*)".toList, [], by simp [toString]⟩
    exact named.trans (infix_toScript single cast _)
  · exact infix_toScript single plain _

theorem type_eventValue (a : ScriptArg) : a.eventValue.value.1.type = a.type := by
  rw [eventValue_eq]

end ScriptArg

namespace Declaration

def listenerValues (d : Declaration) : List EventValue :=
  d.scriptArgs.map fun a => ⟨a.listenerExpr, a.name, a.type⟩

theorem raised_dispatch (d : Declaration) :
    (d.dispatch none).value.1.raised = d.scriptArgs.map fun a => a.eventValue.value.1 := by
  unfold dispatch
  cases args : d.scriptArgs with
  | nil => rfl
  | cons a r =>
    simp only [List.isEmpty_cons, Bool.false_eq_true, if_false, Logged.value_bind,
      Logged.value_pure, Logged.value_forEach, List.map_map, Dispatch.raised]
    rfl

theorem eventValues_eq (d : Declaration) :
    d.scriptArgs.map (fun a => a.eventValue.value.1) = d.listenerValues :=
  List.map_congr_left fun a _ => a.eventValue_eq

/-- A handler without fragments hands on the folded arguments in order. -/
theorem dispatch_statements (d : Declaration) (event : String) :
    (d.dispatch none).value.1.statements event = raiseLines event d.listenerValues := by
  rw [← eventValues_eq, ← raised_dispatch]
  unfold dispatch
  cases args : d.scriptArgs with
  | nil => rfl
  | cons a r =>
    simp only [List.isEmpty_cons, Bool.false_eq_true, if_false, Logged.value_bind,
      Logged.value_pure, Logged.value_forEach, Dispatch.raised]
    rw [raiseLines, if_neg (by simp)]
    rfl

def listenerNames (c : CustomProvider) (table : Table) (d : Declaration) : List String :=
  match (c table d.name).bind (·.params) with
  | some params => params.map (·.name)
  | none => d.scriptArgs.map (·.scriptName)

/-- The handler of a readable function whose event is not written by hand. -/
def genericHandler (d : Declaration) (g : GlueSettings) (table : Table) (phase : Phase) :
    Handler where
  symbol := d.eventSymbol table phase
  event := d.eventName table phase
  returns := d.returnType
  params := d.handlerParams
  listenerArgs := listenerNames g.custom table d
  ticks := phase = .base ∧ d.name = g.frameTick
  dispatch := (d.dispatch none).value.1
  flags := (d.dispatch none).value.2

/-- A readable function whose event is not written by hand has the generic handler. -/
theorem eventSlot_eq {g : GlueSettings} {table : Table} {d : Declaration}
    (readable : d.isUnparsable = false)
    (generic : (g.custom table d.name).bind (·.event) = none) (phase : Phase) :
    (d.eventSlot g table phase).value = .handler (d.genericHandler g table phase) := by
  simp only [eventSlot, readable, generic, Bool.false_and, Bool.false_eq_true, if_false,
    Logged.value_bind, Logged.value_pure]
  rfl

/-- A readable function whose event is not written by hand has a handler that hands on its
arguments, with the flags of their values. -/
theorem eventSlot_dispatch {g : GlueSettings} {table : Table} {d : Declaration}
    (readable : d.isUnparsable = false)
    (generic : (g.custom table d.name).bind (·.event) = none) (phase : Phase) :
    ∃ h, (d.eventSlot g table phase).value = .handler h ∧
      h.dispatch = (d.dispatch none).value.1 ∧ h.flags = (d.dispatch none).value.2 :=
  ⟨_, eventSlot_eq readable generic phase, rfl, rfl⟩

def handlerLines (d : Declaration) (g : GlueSettings) (table : Table) (phase : Phase)
    (names : List String) (vs : List EventValue) : List String :=
  let event := d.eventName table phase
  let list := ", ".intercalate names
  [s!"// {g.scriptNamespace}.on('{event}', ({list}) => console.log('{event} fired!'));",
    s!"{d.returnType} {table.eventStem phase}_{d.name}({d.handlerParams})" ++ " \x7b"] ++
  insideLines ("SET_META_RESULT(MRES_IGNORED);" ::
    (if phase = .base ∧ d.name = g.frameTick then ["nodeImpl.Tick();"] else []) ++
    raiseLines event vs ++ Handler.returnStatements d.returnType) ++
  ["\x7d"]

/-- The generic handler is written with the lines that raise its values. -/
theorem source_genericHandler (d : Declaration) (g : GlueSettings) (table : Table)
    (phase : Phase) :
    ((d.genericHandler g table phase).definition g.scriptNamespace).source =
      Text.unlines
        (d.handlerLines g table phase (listenerNames g.custom table d) d.listenerValues) := by
  have statements : (d.genericHandler g table phase).statements =
      "SET_META_RESULT(MRES_IGNORED);" ::
        (if phase = .base ∧ d.name = g.frameTick then ["nodeImpl.Tick();"] else []) ++
        raiseLines (d.eventName table phase) d.listenerValues ++
        Handler.returnStatements d.returnType := by
    rw [Handler.statements, ← d.dispatch_statements]
    simp [genericHandler]
  have remark : "// " ++ (d.genericHandler g table phase).usage g.scriptNamespace =
      let event := d.eventName table phase
      let list := ", ".intercalate (listenerNames g.custom table d)
      s!"// {g.scriptNamespace}.on('{event}', ({list}) => console.log('{event} fired!'));" := by
    apply String.toList_injective
    simp [Handler.usage, genericHandler, toString]
  have head : s!"{d.returnType} {d.eventSymbol table phase}({d.handlerParams})" =
      s!"{d.returnType} {table.eventStem phase}_{d.name}({d.handlerParams})" := by
    apply String.toList_injective
    simp [eventSymbol, toString]
  rw [FunctionDef.source_eq, FunctionDef.shown, Handler.definition, statements]
  dsimp only
  rw [if_neg Bool.false_ne_true, Layout.blockLines, indented_bodyLines, List.map_singleton, remark]
  simp only [genericHandler, head]
  rfl

/-- Where no event is written by hand, the handler raises the folded arguments: it is written with
the lines that count its values and set each of them. -/
theorem eventSlot_raised {g : GlueSettings} {table : Table} {d : Declaration}
    (readable : d.isUnparsable = false)
    (generic : (g.custom table d.name).bind (·.event) = none) (phase : Phase) :
    ∃ h, (d.eventSlot g table phase).value = .handler h ∧
      h.dispatch.raised = d.scriptArgs.map (fun a => a.eventValue.value.1) ∧
      (h.definition g.scriptNamespace).source = Text.unlines
        (d.handlerLines g table phase (listenerNames g.custom table d) h.dispatch.raised) := by
  refine ⟨_, eventSlot_eq readable generic phase, d.raised_dispatch, ?_⟩
  have raised : (d.genericHandler g table phase).dispatch.raised = d.listenerValues :=
    d.raised_dispatch.trans d.eventValues_eq
  rw [raised, source_genericHandler]

end Declaration

end ScriptGlue
