import ScriptGlue.Glue.Typing
import ScriptGlue.Proofs.Custom.Registry
import ScriptGlue.Proofs.Declaration.Folding
import ScriptGlue.Proofs.Glue.Raising
import ScriptGlue.Proofs.Mapping.Rows

/-!
# Events and the types of their listeners

A handler raises the folded arguments of its function as script values. The type of its listeners
lists them as well, unless parameters are typed by hand, which for three functions is done for the
sake of their bindings alone. With the built-in fragments, listeners of all other functions get the
arguments that their types list. What a handler raises is told by the lines that it is written with.
-/
namespace ScriptGlue

open Code Mapping

/-- A signature lists values: it has a parameter for each, of the type that is declared for the
native type of the value. -/
structure Code.TypedSignature.Lists (s : TypedSignature) (vs : List EventValue) : Prop where
  count : s.params.length = vs.length
  types : ∀ (index : Nat) (v : EventValue), vs[index]? = some v →
    (s.params[index]?).map (·.type) = some (declaredType v.type)

theorem Code.TypedSignature.lists_iff {s : TypedSignature} {vs : List EventValue} :
    s.Lists vs ↔ s.params.map (·.type) = vs.map fun v => declaredType v.type := by
  constructor
  · rintro ⟨count, types⟩
    refine List.ext_getElem? fun index => ?_
    rw [List.getElem?_map, List.getElem?_map]
    cases place : vs[index]? with
    | some v => exact types index v place
    | none =>
      have beyond : s.params.length ≤ index := by
        rw [count]
        exact List.getElem?_eq_none_iff.mp place
      rw [List.getElem?_eq_none beyond]
      rfl
  · intro same
    constructor
    · simpa using congrArg List.length same
    · intro index v place
      rw [← List.getElem?_map, same, List.getElem?_map, place]
      rfl

namespace Declaration

/-- The types of the listener are those written by hand, or else those of the folded arguments. -/
theorem types_eventTyping (g : GlueSettings) (table : Table) {d : Declaration}
    (readable : d.isUnparsable = false) (phase : Phase) :
    ∃ s, d.eventTyping? g table phase = some s ∧
      s.params.map (·.type) = (CustomRegistry.handTypes? g.custom table d.name).getD
        (d.scriptArgs.map fun a => declaredType a.type) := by
  simp only [eventTyping?, readable, Bool.false_and, Bool.false_eq_true, if_false,
    Option.some.injEq, exists_eq_left', CustomRegistry.handTypes?]
  cases (g.custom table d.name).bind (·.params) with
  | none => simp [ScriptArg.typed]
  | some params => rfl

end Declaration

/-! ### Types that are declared for no native type -/

namespace Mapping

/-- No native type is declared as an entity that may be missing. -/
theorem declaredType_ne_optional (type : String) : declaredType type ≠ "Entity | undefined" := by
  have basic : ∀ pair ∈ basicRows, pair.2.declared ≠ "Entity | undefined" := by decide
  have record : ∀ pair ∈ recordRows, pair.2.declared ≠ "Entity | undefined" := by decide
  have pointer : ∀ pair ∈ pointerRows, pair.2.declared ≠ "Entity | undefined" := by decide
  unfold declaredType
  split
  · decide
  · cases found : row? type with
    | none =>
      dsimp only
      split <;> decide
    | some row =>
      rcases row?_cases found with ⟨row, member, rfl⟩ | ⟨row, member, rfl⟩ | ⟨row, member, rfl⟩
      · exact basic _ member
      · exact record _ member
      · exact pointer _ member

end Mapping

namespace Declaration

/-- With the built-in fragments, a function whose event is not written by hand has a handler that
raises its folded arguments and a listener type that lists them, unless its parameters are typed by
hand. Then the two only agree on a function that returns a pair of vectors if its declaration lacks
the parameters for them. -/
theorem eventTyping_lists_iff (g : GlueSettings) (table : Table) (phase : Phase) (d : Declaration)
    (builtin : g.custom = CustomRegistry.builtin.find?) (readable : d.isUnparsable = false)
    (generic : (g.custom table d.name).bind (·.event) = none) :
    ∃ s h, d.eventTyping? g table phase = some s ∧ (d.eventSlot g table phase).value = .handler h ∧
      h.dispatch.raised = d.scriptArgs.map (fun a => a.eventValue.value.1) ∧
      (h.definition g.scriptNamespace).source = Text.unlines
        (d.handlerLines g table phase (listenerNames g.custom table d) h.dispatch.raised) ∧
      (s.Lists h.dispatch.raised ↔ (table, d.name) ∉ CustomRegistry.typedByHand ∨
        (table, d.name) ∈ CustomRegistry.vectorPairs ∧
          d.scriptArgs.map (fun a => declaredType a.type) = ["Entity", "number"]) := by
  obtain ⟨s, typed, types⟩ := types_eventTyping g table readable phase
  obtain ⟨h, slot, raised, source⟩ := eventSlot_raised readable generic phase
  refine ⟨s, h, typed, slot, raised, source, ?_⟩
  rw [builtin] at generic types
  have values : h.dispatch.raised.map (fun v => declaredType v.type) =
      d.scriptArgs.map fun a => declaredType a.type := by
    rw [raised, List.map_map]
    exact List.map_congr_left fun a _ => congrArg declaredType a.type_eventValue
  rw [TypedSignature.lists_iff, types, values, CustomRegistry.handTypes?_builtin generic,
    CustomRegistry.typedByHand, List.mem_cons, not_or]
  by_cases message : (table, d.name) = (.engine, "pfnMessageBegin")
  · rw [if_pos message, Option.getD_some]
    constructor
    · intro same
      have last := congrArg List.getLast? same
      obtain ⟨a, -, optional⟩ := Option.map_eq_some_iff.mp (by simpa using last.symm)
      exact absurd optional (declaredType_ne_optional a.type)
    · rintro (⟨other, -⟩ | ⟨pair, -⟩)
      · exact absurd message other
      · rw [message] at pair
        exact absurd pair (by decide)
  · rw [if_neg message]
    by_cases pair : (table, d.name) ∈ CustomRegistry.vectorPairs
    · rw [if_pos pair, Option.getD_some]
      constructor
      · intro same
        exact .inr ⟨pair, same.symm⟩
      · rintro (⟨-, other⟩ | ⟨-, same⟩)
        · exact absurd pair other
        · exact same.symm
    · rw [if_neg pair, Option.getD_none]
      exact ⟨fun _ => .inl ⟨message, pair⟩, fun _ => rfl⟩

/-- A function with a format string, whose call is written by hand. -/
def sampleAlert : Declaration where
  name := "pfnAlertMessage"
  returnType := "void"
  args := [.fixed ⟨"atype", "ALERT_TYPE", none⟩, .fixed ⟨"szFmt", "const char *", none⟩, .variadic]
  text := "void (*pfnAlertMessage)(ALERT_TYPE atype, const char *szFmt, ...);"
  line := 1

def builtinGlue : GlueSettings := { custom := CustomRegistry.builtin.find? }

/-- A function whose call is written by hand still raises what its listeners are typed for. -/
theorem eventTyping_lists_alert :
    sampleAlert.isUnparsable = false ∧
      (builtinGlue.custom .engine sampleAlert.name).bind (·.event) = none ∧
      ∃ s h, sampleAlert.eventTyping? builtinGlue .engine .post = some s ∧
        (sampleAlert.eventSlot builtinGlue .engine .post).value = .handler h ∧
        s.Lists h.dispatch.raised := by
  have generic : (builtinGlue.custom .engine sampleAlert.name).bind (·.event) = none := by
    decide
  obtain ⟨s, h, typed, slot, -, -, lists⟩ :=
    eventTyping_lists_iff builtinGlue .engine .post sampleAlert rfl (by decide) generic
  exact ⟨by decide, generic, s, h, typed, slot, lists.mpr (.inl (by decide))⟩

/-- The function that tells where a model is attached, as its table declares it. -/
def sampleAttachment : Declaration where
  name := "pfnGetAttachment"
  returnType := "void"
  args := [.fixed ⟨"pEdict", "const edict_t *", none⟩, .fixed ⟨"iAttachment", "int", none⟩,
    .fixed ⟨"rgflOrigin", "float *", none⟩, .fixed ⟨"rgflAngles", "float *", none⟩]
  text := "void (*pfnGetAttachment)(const edict_t *pEdict, int iAttachment, " ++
    "float *rgflOrigin, float *rgflAngles);"
  line := 1

/-- The handler of a function that returns a pair of vectors raises four values where the type of
its listeners lists two. -/
theorem not_lists_attachment :
    ofLine sampleAttachment.text 1 = pure sampleAttachment ∧
      ∃ s h, sampleAttachment.eventTyping? builtinGlue .engine .base = some s ∧
        (sampleAttachment.eventSlot builtinGlue .engine .base).value = .handler h ∧
        (h.definition builtinGlue.scriptNamespace).source = Text.unlines
          (sampleAttachment.handlerLines builtinGlue .engine .base
            (listenerNames builtinGlue.custom .engine sampleAttachment) h.dispatch.raised) ∧
        s.params.map (·.type) = ["Entity", "number"] ∧
        h.dispatch.raised.map (fun v => declaredType v.type) =
          ["Entity", "number", "number[]", "number[]"] ∧ ¬ s.Lists h.dispatch.raised := by
  have generic : (builtinGlue.custom .engine sampleAttachment.name).bind (·.event) = none := by
    decide
  have read : ofLine sampleAttachment.text 1 = pure sampleAttachment := by decide +kernel
  obtain ⟨s, typed, types⟩ :=
    types_eventTyping (d := sampleAttachment) builtinGlue .engine rfl .base
  obtain ⟨h, slot, raised, source⟩ := eventSlot_raised (d := sampleAttachment) rfl generic .base
  have listed : s.params.map (·.type) = ["Entity", "number"] := by
    rw [types]
    decide +kernel
  have values : h.dispatch.raised.map (fun v => declaredType v.type) =
      ["Entity", "number", "number[]", "number[]"] := by
    rw [raised]
    decide +kernel
  refine ⟨read, s, h, typed, slot, source, listed, values, ?_⟩
  rw [TypedSignature.lists_iff, listed, values]
  decide

end Declaration

end ScriptGlue
