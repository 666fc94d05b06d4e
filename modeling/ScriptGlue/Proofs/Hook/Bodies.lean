import ScriptGlue.Proofs.Code.Forms
import ScriptGlue.Proofs.Code.Platforms
import ScriptGlue.Proofs.Hook.ParamNames

/-!
# Bodies of detours

A detour is its head, of which there is one for each platform where their parameters differ, a body
one unit of indentation deeper in, and a closing brace. The body takes back the indentation of all
its parts, and its lines are code in one piece, apart from those that tell the platforms apart.
-/
namespace ScriptGlue.Hook

open Code Layout

section

variable {body : Layout}

theorem isNested_withIsolate (inside : IsNested body) : IsNested (withIsolate body) := by
  have lock : OnlyLines lockLines := by decide
  have locked := lock.isNested.append inside
  exact isNested_scope ((isNested_block _ _ locked).cons_line _)

theorem isNested_withOverride (inside : IsNested body) : IsNested (withOverride body) :=
  isNested_withIsolate (inside.cons_line _)

end

theorem isNested_unlessOverridden (body : List String) : IsNested (unlessOverridden body) :=
  isNested_block _ _ (onlyLines_ofLines body).isNested

theorem isNested_perPlatform {windows others : Layout} (first : IsNested windows)
    (second : IsNested others) : IsNested (perPlatform windows others) :=
  ((first.cons_line _).append (second.cons_line _)).append (isNested_line _)

theorem isNested_returnTail (returns : ReturnShape) : IsNested (returnTail returns) := by
  have answer : IsNested [.line "ret = origret;"] := isNested_line _
  cases returns with
  | void => exact isNested_nil
  | unknown code => exact isNested_nil
  | int => exact isNested_line _
  | float => exact isNested_line _
  | entity =>
    have entity : IsNested (block "if (ed && ed->pvPrivateData)"
        [.line "ret = ed->pvPrivateData;"] "\x7d") := isNested_block _ _ (isNested_line _)
    have override := isNested_withOverride
      (isNested_block "if (!retVal.IsEmpty() && retVal->IsObject())" "\x7d"
        (entity.cons_line "edict_t* ed = (edict_t*)structures::unwrapEntity(isolate, retVal);"))
    exact (((isNested_unlessOverridden _).append answer).append override).append (isNested_line _)
  | string =>
    have override := isNested_withOverride
      (isNested_block "if (!retVal.IsEmpty() && retVal->IsString())" "\x7d"
        (onlyLines_ofLines ["v8::String::Utf8Value str(isolate, retVal);",
          "snprintf(retBuffer, sizeof(retBuffer), \"%s\", *str ? *str : \"\");",
          "ret = retBuffer;"]).isNested)
    exact (((isNested_unlessOverridden _).append answer).append override).append (isNested_line _)
  | vector =>
    have override := isNested_withOverride
      (isNested_block "if (!retVal.IsEmpty() && retVal->IsArray())" "\x7d"
        (isNested_line
          "utils::js2vect(isolate, v8::Local<v8::Array>::Cast(retVal), retVec);"))
    exact (((isNested_unlessOverridden _).append (isNested_line _)).append override).append
      (isNested_line _)

namespace Signature

variable (s : Signature)

def heads : Layout := s.onPlatforms fun leads => [.line (s.headLine leads)]

/-- The body of a detour up to and including the call of the hooked function. -/
def callingPart : Layout :=
  [.line s.returns.pushMacro, Layout.blank] ++ listenerChain s true ++ [Layout.blank] ++
    block "if (mgr.getCurrentResult() < HAM_SUPERCEDE)" (detourCall s) "\x7d"

/-- The body of a detour after the call of the hooked function. -/
def answeringPart : Layout :=
  [Layout.blank] ++ listenerChain s false ++ [.line "POP()"] ++ returnTail s.returns

theorem detourLayout_eq : detourLayout s =
    s.heads ++ (.enter :: (s.callingPart ++ s.answeringPart) ++ [.leave]) ++ [.line "\x7d"] := by
  rw [detourLayout, s.detourHead_eq, heads, callingPart, answeringPart]
  simp [closing, List.append_assoc]

theorem isNested_onPlatforms {part : List Lead → Layout} (each : ∀ leads, IsNested (part leads)) :
    IsNested (s.onPlatforms part) := by
  unfold onPlatforms
  split
  · exact isNested_perPlatform (each _) (each _)
  · exact each _

theorem isNested_heads : IsNested s.heads := s.isNested_onPlatforms fun _ => isNested_line _

theorem isNested_listenerChain (before : Bool) : IsNested (listenerChain s before) := by
  unfold listenerChain
  dsimp only
  split
  · exact isNested_line _
  · refine IsNested.cons_line (isNested_withIsolate (IsNested.cons_line ?_ "")) _
    exact (ListDef.isNested_layout _).append (isNested_line _)

theorem isNested_detourCall : IsNested (detourCall s) := by
  rw [s.detourCall_eq]
  exact s.isNested_onPlatforms fun _ => (onlyLines_ofLines _).isNested

theorem isNested_callingPart : IsNested s.callingPart := by
  have start : IsNested [.line s.returns.pushMacro, Layout.blank] :=
    (onlyLines_ofLines [s.returns.pushMacro, ""]).isNested
  exact ((start.append (s.isNested_listenerChain true)).append (isNested_line "")).append
    (isNested_block "if (mgr.getCurrentResult() < HAM_SUPERCEDE)" "\x7d" s.isNested_detourCall)

theorem isNested_answeringPart : IsNested s.answeringPart :=
  (((isNested_line "").append (s.isNested_listenerChain false)).append
    (isNested_line "POP()")).append (isNested_returnTail s.returns)

theorem isNested_body : IsNested (s.callingPart ++ s.answeringPart) :=
  s.isNested_callingPart.append s.isNested_answeringPart

/-- A detour takes back all indentation, although its head may open twice for one closing brace. -/
theorem isNested_detourLayout : IsNested (detourLayout s) := by
  rw [detourLayout_eq]
  exact (s.isNested_heads.append s.isNested_body.enclosed).append (isNested_line "\x7d")

end Signature

namespace Catalogue

/-- What stands in the file of detours before all detours. -/
def openingPart : Layout :=
  includes detourIncludes ++
    [Layout.blank, .line "extern enginefuncs_t g_engfuncs;", Layout.blank,
      .line "using namespace Ham;", Layout.blank] ++
    [Layout.blank].intercalate (sharedMacros.map (·.map .line)) ++ [Layout.blank]

/-- Detours one after the other. -/
def copies (detours : List Signature) : Layout :=
  detours.flatMap fun s => ofText (detourCode s) ++ [Layout.blank]

theorem copies_eq_ofLines (detours : List Signature) :
    copies detours = ofLines (detours.flatMap fun s => Text.lines (detourCode s) ++ [""]) := by
  rw [copies, ofLines, List.map_flatMap]
  refine List.flatMap_congr fun s _ => ?_
  rw [ofText, List.map_append]
  rfl

/-- What stands in the file of detours behind all detours. -/
def closingPart (c : Catalogue) : Layout :=
  .line s!"const size_t g_hamCallbackCount = {c.entries.length};" :: c.detourTable.layout

theorem detourFileLayout_eq (c : Catalogue) :
    c.detourFileLayout = openingPart ++ copies c.detours ++ c.closingPart := rfl

theorem isNested_openingPart : IsNested openingPart := by
  have gap : IsNested [Layout.blank] := isNested_line ""
  have included : IsNested (includes detourIncludes) := by
    rw [includes_eq]
    exact (onlyLines_ofLines _).isNested
  have middle : IsNested [Layout.blank, .line "extern enginefuncs_t g_engfuncs;", Layout.blank,
      .line "using namespace Ham;", Layout.blank] :=
    (onlyLines_ofLines ["", "extern enginefuncs_t g_engfuncs;", "", "using namespace Ham;",
      ""]).isNested
  have macros : IsNested ([Layout.blank].intercalate (sharedMacros.map (·.map Step.line))) := by
    refine isNested_intercalate gap fun part member => ?_
    obtain ⟨m, -, rfl⟩ := List.mem_map.mp member
    exact (onlyLines_ofLines m).isNested
  exact ((included.append middle).append macros).append gap

theorem isNested_copies (detours : List Signature) : IsNested (copies detours) :=
  isNested_flatMap detours fun _ _ => (onlyLines_ofLines _).isNested.append (isNested_line "")

end Catalogue

/-! ### Lines of detours -/

/-- A line of code: in one piece, and nothing that the preprocessor reads. -/
structure IsCode (text : String) : Prop where
  unbroken : Text.IsUnbroken text.toList
  quiet : IsQuiet text

instance (text : String) : Decidable (IsCode text) :=
  decidable_of_iff (Text.IsUnbroken text.toList ∧ IsQuiet text)
    ⟨fun ⟨unbroken, quiet⟩ => ⟨unbroken, quiet⟩, fun code => ⟨code.unbroken, code.quiet⟩⟩

/-- A line of code is told by its characters. -/
theorem isCode_of_chars {text : String} {cs : List Char} (spelled : text = String.ofList cs)
    (code : Text.IsUnbroken cs ∧ ∀ c ∈ cs.head?, c ≠ '#' ∧ Text.isBlank c = false) :
    IsCode text where
  unbroken := .of_chars spelled code.1
  quiet := by
    rw [IsQuiet, spelled, String.toList_ofList]
    exact code.2

theorem IsCode.append {start rest : String} (code : IsCode start) (filled : start ≠ "")
    (unbroken : Text.IsUnbroken rest.toList) : IsCode (start ++ rest) where
  unbroken := by
    rw [String.toList_append]
    exact code.unbroken.append unbroken
  quiet := code.quiet.append filled rest

namespace FitsDetour

variable {name : String} (fits : FitsDetour name)
include fits

theorem unbroken : Text.IsUnbroken name.toList := fun _ member =>
  Text.isLineEnd_of_isIdentRest (isIdentRest_of_mem fits.identifier member)

theorem ne_empty : name ≠ "" := by
  obtain ⟨c, r, chars, -⟩ := isIdentifier_iff.mp fits.identifier
  rintro rfl
  cases chars

theorem isCode : IsCode name where
  unbroken := fits.unbroken
  quiet c first := by
    have rest := isIdentRest_of_mem fits.identifier (List.mem_of_mem_head? first)
    refine ⟨?_, Text.isBlank_of_isIdentRest rest⟩
    rintro rfl
    exact absurd rest (by decide)

theorem paren_not_mem : '(' ∉ name.toList := fun member =>
  absurd (isIdentRest_of_mem fits.identifier member) (by decide)

end FitsDetour

theorem ParamShape.isCode_scriptValue (shape : ParamShape) {name : String}
    (fits : FitsDetour name) : IsCode (shape.scriptValue name) := by
  have unbroken := fits.unbroken
  have null : IsCode nullValue := isCode_of_chars rfl (by decide)
  unfold scriptValue
  cases shape with
  | itemInfo => exact null
  | unknown text => exact null
  | int | float | vector | entity =>
    simp only [toString, String.append_assoc]
    refine IsCode.append (isCode_of_chars rfl (by decide)) (by simp) ?_
    simp only [Text.isUnbroken_append, unbroken, null.unbroken, true_and, and_true]
    repeat' apply And.intro
    all_goals exact .of_chars rfl (by decide)
  | string | entvars | edict | trace =>
    simp only [toString, String.append_assoc]
    refine fits.isCode.append fits.ne_empty ?_
    simp only [Text.isUnbroken_append, unbroken, null.unbroken, true_and, and_true]
    repeat' apply And.intro
    all_goals exact .of_chars rfl (by decide)

theorem eachLine_withIsolate {body : Layout} (inside : EachLine IsCode body) :
    EachLine IsCode (withIsolate body) := by
  have lock : EachLine IsCode lockLines := by decide
  have guarded : EachLine IsCode (block "if (isolate)" (lockLines ++ body) "\x7d") :=
    EachLine.block (by decide) (lock.append inside) (by decide)
  exact EachLine.scope (by decide) (guarded.cons_line (by decide)) (by decide)

/-- A block of code. -/
theorem eachLine_codeBlock {head : String} {body : Layout} (opens : IsCode head)
    (filled : head ≠ "") (inside : EachLine IsCode body) :
    EachLine IsCode (block head body "\x7d") :=
  EachLine.block (opens.append filled (by decide)) inside (by decide)

theorem eachLine_withOverride {body : Layout} (inside : EachLine IsCode body) :
    EachLine IsCode (withOverride body) :=
  eachLine_withIsolate (inside.cons_line (isCode_of_chars rfl (by decide)))

theorem eachLine_unlessOverridden {body : List String} (each : ∀ l ∈ body, IsCode l) :
    EachLine IsCode (unlessOverridden body) :=
  eachLine_codeBlock (isCode_of_chars rfl (by decide)) (by simp) (eachLine_ofLines each)

theorem eachLine_returnTail (returns : ReturnShape) : EachLine IsCode (returnTail returns) := by
  have line {text : String} (code : IsCode text) : EachLine IsCode [.line text] :=
    eachLine_nil.cons_line code
  have original : EachLine IsCode
      (unlessOverridden ["return origret;"] ++ [.line "ret = origret;"]) :=
    (eachLine_unlessOverridden (by decide)).append (line (by decide))
  cases returns with
  | void => exact eachLine_nil
  | unknown code => exact eachLine_nil
  | int => exact line (by decide)
  | float => exact line (by decide)
  | entity =>
    have opens : IsCode "if (!retVal.IsEmpty() && retVal->IsObject())" :=
      isCode_of_chars rfl (by decide)
    have unwraps : IsCode "edict_t* ed = (edict_t*)structures::unwrapEntity(isolate, retVal);" :=
      isCode_of_chars rfl (by decide)
    have found : IsCode "if (ed && ed->pvPrivateData)" := by decide
    have entity : IsCode "ret = ed->pvPrivateData;" := by decide
    have inner := (eachLine_codeBlock found (by simp) (line entity)).cons_line unwraps
    have override := eachLine_withOverride (eachLine_codeBlock opens (by simp) inner)
    exact (original.append override).append (line (by decide))
  | string =>
    have opens : IsCode "if (!retVal.IsEmpty() && retVal->IsString())" :=
      isCode_of_chars rfl (by decide)
    have reads : IsCode "v8::String::Utf8Value str(isolate, retVal);" :=
      isCode_of_chars rfl (by decide)
    have copies : IsCode "snprintf(retBuffer, sizeof(retBuffer), \"%s\", *str ? *str : \"\");" :=
      isCode_of_chars rfl (by decide)
    have inner := ((line (by decide : IsCode "ret = retBuffer;")).cons_line copies).cons_line reads
    have override := eachLine_withOverride (eachLine_codeBlock opens (by simp) inner)
    exact (original.append override).append (line (by decide))
  | vector =>
    have opens : IsCode "if (!retVal.IsEmpty() && retVal->IsArray())" :=
      isCode_of_chars rfl (by decide)
    have reads : IsCode
        "utils::js2vect(isolate, v8::Local<v8::Array>::Cast(retVal), retVec);" :=
      isCode_of_chars rfl (by decide)
    have copies : IsCode "memcpy(retVec, origVec, sizeof(float) * 3);" :=
      isCode_of_chars rfl (by decide)
    have answers : IsCode "memcpy(out, retVec, sizeof(float) * 3);" :=
      isCode_of_chars rfl (by decide)
    have early : ∀ l ∈ ["memcpy(out, origVec, sizeof(float) * 3);", "return;"], IsCode l := by
      simp only [List.forall_mem_cons]
      exact ⟨isCode_of_chars rfl (by decide), by decide, by simp⟩
    have override := eachLine_withOverride (eachLine_codeBlock opens (by simp) (line reads))
    exact (((eachLine_unlessOverridden early).append (line copies)).append override).append
      (line answers)

theorem ReturnShape.nativeType_mem (returns : ReturnShape) : returns.nativeType ∈ resultTypes := by
  cases returns <;> simp [nativeType, resultTypes]

namespace ParamShape

def nativeTypes : List String := ["int", "float", "float*", "const char*", "void*"]

theorem nativeType_mem (shape : ParamShape) : shape.nativeType ∈ nativeTypes := by
  cases shape <;> simp [nativeType, nativeTypes]

end ParamShape

namespace Signature

variable (s : Signature)

/-- What is true of one text for each parameter. -/
theorem forall_perParam {p : String → Prop} {text : ParamShape → String → String}
    (each : ∀ shape name, FitsDetour name → p (text shape name)) : ∀ t ∈ s.perParam text, p t := by
  intro t member
  obtain ⟨k, rfl⟩ := List.mem_ofFn.mp member
  exact each _ _ (fitsDetour_paramNames s.key s.params _ (List.get_mem _ _))

theorem eachLine_listenerChain (before : Bool) : EachLine IsCode (listenerChain s before) := by
  rw [s.listenerChain_eq before]
  dsimp only
  have args : ∀ a ∈ s.listenerArgs, IsCode a :=
    s.forall_perParam fun shape _ fits => shape.isCode_scriptValue fits
  have rows : ∀ r ∈ ListDef.rows s.listenerArgs, IsCode r := by
    intro r member
    rcases List.mem_append.mp member with inner | last
    · obtain ⟨a, among, rfl⟩ := List.mem_map.mp inner
      by_cases empty : a = ""
      · rw [empty]
        decide
      · exact (args a (List.dropLast_subset _ among)).append empty (by decide)
    · exact args r (List.mem_of_getLast? (Option.mem_toList.mp last))
  split
  · refine EachLine.cons_line ?_ eachLine_nil
    cases before <;> decide
  · have array : IsCode
        (s!"v8::Local<v8::Value> extraArgs[{s.params.length}]" ++ " =" ++ " \x7b") := by
      simp only [toString, String.append_assoc]
      refine IsCode.append (by decide) (by simp) ?_
      simp +decide only [Text.isUnbroken_append, Text.isUnbroken_repr]
    refine EachLine.cons_line ?_ (eachLine_withIsolate ?_)
    · cases before <;> decide
    · refine ((EachLine.block array (eachLine_ofLines rows) (by decide)).cons_line
        (by decide)).append (EachLine.cons_line ?_ eachLine_nil)
      cases before <;> decide

/-- The parameters that may stand in front of those of a hook. -/
def leadChoices : List (List Lead) := [[.this], [.this, .out], [.out, .this]]

/-- The lines for all platforms are those for each and the marks between them. -/
theorem eachLine_onPlatforms {p : String → Prop} {ls : List Lead → List String}
    (marks : p "#ifdef _WIN32" ∧ p "#else" ∧ p "#endif")
    (each : ∀ leads ∈ leadChoices, ∀ l ∈ ls leads, p l) :
    EachLine p (s.onPlatforms fun leads => ofLines (ls leads)) := by
  obtain ⟨opens, between, closes⟩ := marks
  have part {leads : List Lead} (known : leads ∈ leadChoices) : EachLine p (ofLines (ls leads)) :=
    eachLine_ofLines (each leads known)
  unfold onPlatforms
  split
  · have first := (@part [.this, .out] (by simp [leadChoices])).cons_line opens
    have second := (@part [.out, .this] (by simp [leadChoices])).cons_line between
    exact (first.append second).append (eachLine_nil.cons_line closes)
  · exact part (by simp [leadChoices])

/-- The parameters of a detour stay in one piece, and none has a parenthesis. -/
theorem forall_takenParams {leads : List Lead} (known : leads ∈ leadChoices) :
    ∀ t ∈ s.takenParams leads, Text.IsUnbroken t.toList ∧ '(' ∉ t.toList := by
  have front : ∀ leads ∈ leadChoices, ∀ t ∈ "Hook* hook" :: leads.map (·.decl),
      Text.IsUnbroken t.toList ∧ '(' ∉ t.toList := by
    decide
  have types : ∀ t ∈ ParamShape.nativeTypes, Text.IsUnbroken t.toList ∧ '(' ∉ t.toList := by
    decide
  intro t member
  rcases List.mem_append.mp member with lead | own
  · exact front leads known t lead
  · refine s.forall_perParam (p := fun t => Text.IsUnbroken t.toList ∧ '(' ∉ t.toList)
      (fun shape name fits => ?_) t own
    obtain ⟨unbroken, single⟩ := types _ shape.nativeType_mem
    simp only [toString]
    constructor
    · simp +decide only [Text.isUnbroken_append, unbroken, fits.unbroken]
    · simp +decide [single, fits.paren_not_mem]

theorem isCode_callLines {leads : List Lead} (known : leads ∈ leadChoices) :
    ∀ l ∈ s.callLines leads, IsCode l := by
  have frontTypes : ∀ leads ∈ leadChoices, ∀ t ∈ leads.map (·.type), Text.IsUnbroken t.toList := by
    decide
  have frontArgs : ∀ leads ∈ leadChoices, ∀ t ∈ leads.map (·.arg), Text.IsUnbroken t.toList := by
    decide
  have shapes : ∀ t ∈ ParamShape.nativeTypes, Text.IsUnbroken t.toList := by decide
  have results : ∀ t ∈ resultTypes, Text.IsUnbroken t.toList := by decide
  have result := results _ s.returns.nativeType_mem
  have types : Text.IsUnbroken (", ".intercalate (s.passedTypes leads)).toList := by
    refine Text.IsUnbroken.intercalate (by decide) fun t member => ?_
    rcases List.mem_append.mp member with lead | own
    · exact frontTypes leads known t lead
    · exact s.forall_perParam (p := fun t => Text.IsUnbroken t.toList)
        (fun shape _ _ => shapes _ shape.nativeType_mem) t own
  have args : Text.IsUnbroken (", ".intercalate (s.passedArgs leads)).toList := by
    refine Text.IsUnbroken.intercalate (by decide) fun t member => ?_
    rcases List.mem_append.mp member with lead | own
    · exact frontArgs leads known t lead
    · exact s.forall_perParam (p := fun t => Text.IsUnbroken t.toList)
        (fun _ _ fits => fits.unbroken) t own
  intro l member
  simp only [callLines, toString, String.append_assoc, List.mem_cons, List.not_mem_nil,
    or_false] at member
  rcases member with rfl | rfl | rfl
  · refine IsCode.append (by decide) (by simp) ?_
    simp +decide only [Text.isUnbroken_append, result, types]
  · decide
  · split
    · refine IsCode.append (by decide) (by simp) ?_
      simp +decide only [Text.isUnbroken_append, args]
    · refine IsCode.append (by decide) (by simp) ?_
      simp +decide only [Text.isUnbroken_append, args]

end Signature

end ScriptGlue.Hook
