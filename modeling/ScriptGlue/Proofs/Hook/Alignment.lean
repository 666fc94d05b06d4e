import ScriptGlue.Proofs.Hook.Definitions
import ScriptGlue.Proofs.Output.InPlace

/-!
# Hooks by place

The hooks of a catalogue show up in the enumeration of hooks, among the types of callbacks and in
the table of detours, each time at the place that they have in the catalogue. For each hook with a
row, the file of detours holds one detour, whose lines are told here from the parameters of the row:
its head, the call of the hooked function, and the arrays that listeners get before and after.
-/
namespace ScriptGlue

namespace Hook

open Code Layout

theorem units_detourUnit : units detourUnit 1 = "    " := by decide

theorem units_defaultUnit : units defaultUnit 1 = "  " := by decide

/-- What stands in the script engine is enclosed twice. -/
theorem shown_withIsolate {body : Layout} (inside : IsNested body) :
    shown detourUnit 0 (withIsolate body) =
      ["\x7b",
        "    v8::Isolate* isolate = mgr.getIsolate();",
        "    if (isolate) \x7b",
        "        v8::Locker locker(isolate);",
        "        v8::Isolate::Scope isolateScope(isolate);",
        "        v8::HandleScope handleScope(isolate);"] ++
        (shown detourUnit 0 body).map (Text.marginLine "        ") ++
      ["    \x7d", "\x7d"] := by
  have locked : IsNested lockLines := OnlyLines.isNested (by decide)
  have guarded : IsNested (block "if (isolate)" (lockLines ++ body) "\x7d") :=
    isNested_block _ _ (locked.append inside)
  have deeper (l : String) : Text.marginLine "    " (Text.marginLine "    " l) =
      Text.marginLine "        " l :=
    Text.marginLine_marginLine "    " "    " l
  have lock : shown detourUnit 0 lockLines = ["v8::Locker locker(isolate);",
      "v8::Isolate::Scope isolateScope(isolate);", "v8::HandleScope handleScope(isolate);"] :=
    rfl
  rw [withIsolate, (guarded.cons_line _).shown_scope, shown_cons_line,
    (locked.append inside).shown_block, locked.shown_before, lock, units_detourUnit]
  simp [Text.marginLine_of_ne, deeper]

namespace Signature

variable (s : Signature)

/-- The lines of a part of a detour for each platform. A vector is returned through a parameter,
which stands behind the hooked object on one platform and before it on the others. -/
def linesByPlatform (part : List Lead → List String) : List String :=
  if s.returnsVector then
    "#ifdef _WIN32" :: part [.this, .out] ++ "#else" :: part [.out, .this] ++ ["#endif"]
  else part [.this]

/-- The lines that run the listeners before or after the hooked function. Without parameters there
is no array for them. -/
def listenerLines (before : Bool) : List String :=
  let flag := if before then "true" else "false"
  let side := if before then "pre" else "post"
  if s.params.length = 0 then [s!"executeCallbacks(hook, pthis, {flag});"]
  else
    [s!"// Execute {side}-callbacks with parameters",
      "\x7b",
      "    v8::Isolate* isolate = mgr.getIsolate();",
      "    if (isolate) \x7b",
      "        v8::Locker locker(isolate);",
      "        v8::Isolate::Scope isolateScope(isolate);",
      "        v8::HandleScope handleScope(isolate);",
      "",
      s!"        v8::Local<v8::Value> extraArgs[{s.params.length}] = \x7b"] ++
      (ListDef.rows s.listenerArgs).map (Text.marginLine "            ") ++
    ["        \x7d;",
      s!"        executeCallbacksWithArgs(hook, pthis, {flag}, isolate, extraArgs);",
      "    \x7d",
      "\x7d"]

def detourLines : List String :=
  s.linesByPlatform (fun leads => [s.headLine leads]) ++
    ([s.returns.pushMacro, ""] ++ s.listenerLines true ++ [""] ++
      ("if (mgr.getCurrentResult() < HAM_SUPERCEDE) \x7b" ::
        (s.linesByPlatform s.callLines).map (Text.marginLine "    ") ++ ["\x7d"]) ++
      [""] ++ s.listenerLines false ++ ["POP()"] ++ shown detourUnit 0 (returnTail s.returns)).map
      (Text.marginLine "    ") ++
    ["\x7d"]

/-- A part with other leads on each platform is shown between its directives. -/
theorem shown_onPlatforms (part : List Lead → List String) :
    shown detourUnit 0 (s.onPlatforms fun leads => ofLines (part leads)) =
      s.linesByPlatform part := by
  unfold onPlatforms linesByPlatform
  split
  · have whole : perPlatform (ofLines (part [.this, .out])) (ofLines (part [.out, .this])) =
        ofLines ("#ifdef _WIN32" :: part [.this, .out] ++ "#else" :: part [.out, .this] ++
          ["#endif"]) := by
      simp [perPlatform, ofLines]
    rw [whole, shown_flush]
  · exact shown_flush detourUnit _

theorem shown_listenerChain (before : Bool) :
    shown detourUnit 0 (listenerChain s before) = s.listenerLines before := by
  rw [listenerChain_eq, listenerLines]
  dsimp only
  split
  · exact shown_flush detourUnit [_]
  · have rows : IsNested (ofLines (ListDef.rows s.listenerArgs)) :=
      (onlyLines_ofLines _).isNested
    have array := isNested_block
      (s!"v8::Local<v8::Value> extraArgs[{s.params.length}]" ++ " =") "\x7d;" rows
    have deeper (l : String) : Text.marginLine "        " (Text.marginLine "    " l) =
        Text.marginLine "            " l :=
      Text.marginLine_marginLine "        " "    " l
    have opens : Text.marginLine "        "
        (s!"v8::Local<v8::Value> extraArgs[{s.params.length}]" ++ " =" ++ " \x7b") =
          s!"        v8::Local<v8::Value> extraArgs[{s.params.length}] = \x7b" :=
      Text.marginLine_eq (by simp) (by simp [toString])
    have runs (flag : String) : Text.marginLine "        "
        s!"executeCallbacksWithArgs(hook, pthis, {flag}, isolate, extraArgs);" =
          s!"        executeCallbacksWithArgs(hook, pthis, {flag}, isolate, extraArgs);" :=
      Text.marginLine_eq (by simp [toString]) (by simp [toString])
    have gap : Text.marginLine "        " "" = "" := rfl
    have closes : Text.marginLine "        " "\x7d;" = "        \x7d;" := by decide
    have filled := array.cons_line ""
    rw [shown_cons_line, Layout.blank, shown_withIsolate (filled.append (isNested_line _)),
      filled.shown_before, shown_cons_line, rows.shown_block, shown_flush, units_detourUnit,
      shown_cons_line]
    simp only [List.map_append, List.map_cons, List.map_map, Function.comp_def, deeper, opens, runs,
      gap, closes]
    simp [shown]

/-- The first part of a detour raises the listeners and, unless they prevent it, calls the hooked
function. -/
theorem shown_callingPart : shown detourUnit 0 s.callingPart =
    [s.returns.pushMacro, ""] ++ s.listenerLines true ++ [""] ++
      ("if (mgr.getCurrentResult() < HAM_SUPERCEDE) \x7b" ::
        (s.linesByPlatform s.callLines).map (Text.marginLine "    ") ++ ["\x7d"]) := by
  have start : IsNested [.line s.returns.pushMacro, Layout.blank] :=
    (onlyLines_ofLines [s.returns.pushMacro, ""]).isNested
  have opens : shown detourUnit 0 [.line s.returns.pushMacro, Layout.blank] =
      [s.returns.pushMacro, ""] := shown_flush detourUnit [s.returns.pushMacro, ""]
  have gap : IsNested [Layout.blank] := isNested_line ""
  have listeners := s.isNested_listenerChain true
  have call : shown detourUnit 0 (detourCall s) = s.linesByPlatform s.callLines := by
    rw [s.detourCall_eq, shown_onPlatforms]
  rw [callingPart, ((start.append listeners).append gap).shown_before,
    (start.append listeners).shown_before, start.shown_before, opens, shown_listenerChain,
    s.isNested_detourCall.shown_block, call, units_detourUnit]
  rfl

theorem shown_answeringPart : shown detourUnit 0 s.answeringPart =
    [""] ++ s.listenerLines false ++ ["POP()"] ++ shown detourUnit 0 (returnTail s.returns) := by
  have gap : IsNested [Layout.blank] := isNested_line ""
  have listeners := s.isNested_listenerChain false
  have pop : IsNested [.line "POP()"] := isNested_line _
  rw [answeringPart, ((gap.append listeners).append pop).shown_before,
    (gap.append listeners).shown_before, gap.shown_before, shown_listenerChain]
  rfl

theorem lines_eq : s.lines = s.detourLines := by
  have heads : s.headLines = s.linesByPlatform fun leads => [s.headLine leads] := rfl
  rw [lines, s.isNested_callingPart.shown_before, shown_callingPart, shown_answeringPart,
    units_detourUnit, heads, detourLines]
  simp only [List.append_assoc]

theorem detourCode_eq : detourCode s = Text.unlines s.detourLines := by
  rw [detourCode, renderAt_eq_unlines, shown_detourLayout, lines_eq]

end Signature

namespace Entry

variable (e : Entry)

theorem margin_number : Text.marginLine "    " s!"{e.name} = {Output.signedWord e.id}," =
    s!"    {e.name} = {Output.signedWord e.id}," :=
  Text.marginLine_eq (by simp [toString]) (by simp [toString])

theorem margin_arm :
    Text.marginLine "    " s!"T extends HAM_FUNC.{e.name} ? {e.callbackText} :" =
      s!"    T extends HAM_FUNC.{e.name} ? {e.callbackText} :" :=
  Text.marginLine_eq (by simp [toString]) (by simp [toString])

theorem margin_slotLine (comma : String) :
    Text.marginLine "    " (e.slotLine comma) = "    " ++ e.slotLine comma := by
  refine Text.marginLine_of_ne _ ?_
  unfold slotLine
  split <;> simp [toString]

end Entry

namespace Catalogue

variable (c : Catalogue)

/-- The lines of the file of detours behind its macros: the detours one after the other, each
followed by an empty line, then the number of hooks and the detour of each. -/
def detourTableLines : List String :=
  s!"const size_t g_hamCallbackCount = {c.entries.length};" :: "void* g_hamCallbacks[] = \x7b" ::
    (List.ofFn fun i : Fin c.entries.length =>
      "    " ++ (c.entries.get i).slotLine (if i.val + 1 < c.entries.length then "," else "")) ++
    ["\x7d;"]

/-- Where the hooks of a catalogue show up: in the enumeration of hooks, among the types of
callbacks, as detours, and in the table of detours. -/
structure IsAligned : Prop where
  typings : ∀ scriptNamespace, ∃ before between, Output.hooksText scriptNamespace c =
    Text.unlines (before ++ "  const enum HAM_FUNC \x7b" ::
      (c.perEntry fun e => s!"    {e.name} = {Output.signedWord e.id},") ++ "  \x7d" ::
      between ++ "  type HamCallbackFor<T extends HAM_FUNC> =" ::
      (c.perEntry fun e => s!"    T extends HAM_FUNC.{e.name} ? {e.callbackText} :") ++
      ["    (this_: Entity, ...args: any[]) => HAM_RESULT | void;", "\x7d"])
  detours : ∃ before, c.detourFile = Text.unlines (before ++
    (c.entries.filterMap (·.signature)).flatMap
      (fun s => Text.lines (Text.unlines s.detourLines) ++ [""]) ++ c.detourTableLines)
  /-- A detour is copied as it is if its key stays in one piece. -/
  copied : ∀ e ∈ c.entries, ∀ s, e.signature = some s → Text.IsUnbroken s.key.toList →
    Text.lines (Text.unlines s.detourLines) = s.detourLines
  lengths : ∀ e ∈ c.entries, ∀ s, e.signature = some s → ∀ leads,
    (s.takenParams leads).length = 1 + leads.length + s.params.length ∧
      (s.passedTypes leads).length = leads.length + s.params.length ∧
      (s.passedArgs leads).length = leads.length + s.params.length ∧
      s.listenerArgs.length = s.params.length ∧
      s.callbackDecls.length = 1 + s.params.length

theorem shown_closingPart : shown detourUnit 0 c.closingPart = c.detourTableLines := by
  have slots : ListDef.itemLines c.detourTable.items =
      ofLines (List.ofFn fun i : Fin c.entries.length =>
        (c.entries.get i).slotLine (if i.val + 1 < c.entries.length then "," else "")) := by
    rw [detourTable, map_entries, perEntry, ListDef.itemLines_ofFn, ofLines, List.map_ofFn]
    refine congrArg List.ofFn (funext fun i => ?_)
    exact (c.entries.get i).itemLine_detourItem _
  rw [closingPart, shown_cons_line, ListDef.layout, slots,
    (onlyLines_ofLines _).isNested.shown_block, shown_flush, units_detourUnit, detourTableLines,
    List.map_ofFn]
  simp only [Function.comp_def, Entry.margin_slotLine]
  rfl

/-- The numbers of hooks as they are written. -/
theorem shown_hookEnum : shown defaultUnit 0 (Output.hookEnum c).layout =
    ["/** Ham function IDs for virtual function hooking */", "const enum HAM_FUNC \x7b"] ++
      (c.perEntry fun e => s!"{e.name} = {Output.signedWord e.id},").map (Text.marginLine "  ") ++
      ["\x7d"] := by
  have rows : (Output.hookEnum c).values.map TypedEnum.valueLine =
      ofLines (c.perEntry fun e => s!"{e.name} = {Output.signedWord e.id},") := by
    rw [← map_entries, ofLines, List.map_map]
    exact List.map_map
  have whole : (Output.hookEnum c).layout =
      .line "/** Ham function IDs for virtual function hooking */" ::
        block "const enum HAM_FUNC" ((Output.hookEnum c).values.map TypedEnum.valueLine) "\x7d" :=
    rfl
  rw [whole, rows, shown_cons_line, (onlyLines_ofLines _).isNested.shown_block, shown_flush,
    units_defaultUnit]
  rfl

def callbackMap : Layout :=
  .line "type HamCallbackFor<T extends HAM_FUNC> =" ::
    (.enter ::
      (ofLines (c.perEntry fun e => s!"T extends HAM_FUNC.{e.name} ? {e.callbackText} :") ++
        [.line "(this_: Entity, ...args: any[]) => HAM_RESULT | void;"]) ++ [.leave])

/-- The type of callbacks has one line for each hook. -/
theorem shown_callbackMap : shown defaultUnit 0 c.callbackMap =
    "type HamCallbackFor<T extends HAM_FUNC> =" ::
      (c.perEntry fun e => s!"T extends HAM_FUNC.{e.name} ? {e.callbackText} :").map
        (Text.marginLine "  ") ++
      ["  (this_: Entity, ...args: any[]) => HAM_RESULT | void;"] := by
  have arms : IsNested (ofLines
      (c.perEntry fun e => s!"T extends HAM_FUNC.{e.name} ? {e.callbackText} :")) :=
    (onlyLines_ofLines _).isNested
  rw [callbackMap, shown_cons_line, (arms.append (isNested_line _)).shown_enclosed,
    arms.shown_before, shown_flush, units_defaultUnit, List.map_append]
  rfl

/-- The file of hooks holds their numbers, then their results, then the types of their callbacks. -/
theorem exists_hooksBody : ∃ between, IsNested between ∧
    (Output.TypingFile.hooks c).body = (Output.hookEnum c).layout ++ between ++ c.callbackMap := by
  have arms : c.entries.map (fun e => Step.line (Output.callbackArm e)) =
      ofLines (c.perEntry fun e => s!"T extends HAM_FUNC.{e.name} ? {e.callbackText} :") := by
    rw [← map_entries, ofLines, List.map_map]
    refine List.map_congr_left fun e _ => ?_
    rw [Function.comp_apply, ← e.callbackType_eq]
    rfl
  have remarks : IsNested [Layout.blank,
      .line "// Ham callback type mappings - maps HAM_FUNC to callback signature",
      .line <| "// All callbacks receive '" ++ thisName ++
        "' (the hooked entity) as the first parameter"] :=
    (onlyLines_ofLines ["", _, _]).isNested
  have last : s!"({thisName}: Entity, ...args: any[]) => HAM_RESULT | void;" =
      "(this_: Entity, ...args: any[]) => HAM_RESULT | void;" := by
    apply String.toList_injective
    simp [thisName, toString]
  refine ⟨_, ((isNested_line "").append (Output.resultEnum c).isNested_layout).append remarks, ?_⟩
  rw [Output.TypingFile.body, arms, callbackMap, last]
  simp [Layout.blank]

/-- Scripts and detours describe the same calls of the same hooks. -/
theorem aligned : c.IsAligned where
  typings scriptNamespace := by
    obtain ⟨between, nested, body⟩ := c.exists_hooksBody
    obtain ⟨before, whole⟩ := Output.exists_shown_typingLayout scriptNamespace
      [Output.recordsFile] (Output.TypingFile.hooks c).isNested_body
    have written : Output.hooksText scriptNamespace c =
        ((Output.TypingFile.hooks c).layout scriptNamespace).render :=
      (Output.TypingFile.hooks c).text_eq scriptNamespace
    have enums := (Output.hookEnum c).isNested_layout
    have deeper (l : String) : Text.marginLine "  " (Text.marginLine "  " l) =
        Text.marginLine "    " l :=
      Text.marginLine_marginLine "  " "  " l
    refine ⟨before ++ ["  /** Ham function IDs for virtual function hooking */"],
      (shown defaultUnit 0 between).map (Text.marginLine "  "), ?_⟩
    rw [written, render, renderAt_eq_unlines, Output.TypingFile.layout,
      Output.TypingFile.references, whole, body, (enums.append nested).shown_before, enums.shown_before, shown_hookEnum,
      shown_callbackMap]
    simp only [← map_entries, List.map_append, List.map_cons, List.map_nil, List.map_map,
      Function.comp_def, deeper, Entry.margin_number,
      Entry.margin_arm]
    simp [Text.marginLine_of_ne]
  detours := by
    refine ⟨shown detourUnit 0 openingPart, ?_⟩
    rw [detourFile, renderAt_eq_unlines, detourFileLayout_eq,
      (isNested_openingPart.append (isNested_copies _)).shown_before,
      isNested_openingPart.shown_before, copies_eq_ofLines, shown_flush, shown_closingPart]
    simp only [Signature.detourCode_eq]
    rfl
  copied e member s row plain := by
    rw [← s.detourCode_eq, Signature.lines_detourCode plain, s.lines_eq]
  lengths _ _ s _ := s.length_places

end Catalogue

end Hook

end ScriptGlue
