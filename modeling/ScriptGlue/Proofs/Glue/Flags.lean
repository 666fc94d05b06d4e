import ScriptGlue.Proofs.Code.Rendering
import ScriptGlue.Proofs.Glue.ArrayLengths
import ScriptGlue.Proofs.Glue.Passing
import ScriptGlue.Proofs.Output.Standing

/-!
# Flags of generated code

A value is flagged if its type has no row or if a number of elements was taken for lack of a known
one. Which values are converted at all depends on the rest of the declaration: a handler converts
each folded argument, some of them twice, and a binding leaves out what it sets up before the call.
Still each flag is raised once, in the order of the arguments, and the flags alone decide whether a
binding is installed.
-/
namespace ScriptGlue

open Code Mapping

/-! ### Flags of conversions -/

/-- The flags of a value of a native type on its way to scripts, where a number of elements may be
known. -/
inductive ValueFlags (type arg : String) (known : Prop) : List Flag → Prop where
  | unmapped (unlisted : row? type = none) : ValueFlags type arg known [.unknownType arg type]
  /-- The row asks for a number of elements and the one that it has itself is taken. -/
  | assumed {row : PointerRow} {n : Nat} (listed : row? type = some (.pointer row))
      (asks : takesLength row.toScript = true) (missing : ¬ known)
      (default : row.defaultLength = some n) : ValueFlags type arg known [.assumedLength arg n]
  | settled {row : Mapping.Row} (listed : row? type = some row)
      (enough : known ∨ ∀ pointer, row = .pointer pointer → takesLength pointer.toScript = false) :
      ValueFlags type arg known []

namespace Mapping

theorem Conversion.value_note (c : Conversion) (arg type : String) :
    (c.note arg type).value = c.flags arg type := by
  unfold note
  split <;> rfl

theorem Conversion.eq_of_mem_flags {c : Conversion} {arg type : String} {f : Flag}
    (member : f ∈ c.flags arg type) (unknown : f.isUnknownType = true) :
    f = .unknownType arg type := by
  rcases List.mem_append.mp member with mark | length
  · split at mark
    · exact List.mem_singleton.mp mark
    · cases mark
  · obtain ⟨n, -, rfl⟩ := List.mem_map.mp length
    cases unknown

theorem valueFlags_toScript (type value arg : String) (length : Option String) :
    ValueFlags type arg (length ≠ none) ((toScript type value length).value.flags arg type) := by
  cases found : row? type with
  | none =>
    obtain ⟨source, assumed⟩ := toScript_unknown found value length
    have flags : (toScript type value length).value.flags arg type = [.unknownType arg type] := by
      simp [Conversion.flags, Conversion.isUnknown, source, assumed]
    rw [flags]
    exact .unmapped found
  | some row =>
    have flags : (toScript type value length).value.flags arg type =
        (if length = none then row.assumedLength else none).toList.map (.assumedLength arg) := by
      rw [toScript_eq found]
      simp [Conversion.flags, Conversion.isUnknown, source_ne_unknown]
    rw [flags]
    by_cases missing : length = none
    · rw [if_pos missing]
      cases assumed : row.assumedLength with
      | some n =>
        obtain ⟨pointer, rfl, asks, default⟩ := assumedLength_cases assumed
        exact .assumed found asks (not_not_intro missing) default
      | none =>
        refine .settled found (.inr ?_)
        rintro pointer rfl
        obtain ⟨key, member⟩ := mem_pointerRows found
        rw [assumedLength_eq found] at assumed
        rw [(pointerRows_length _ member).1, assumed]
        rfl
    · rw [if_neg missing]
      exact .settled found (.inl missing)

/-- On the way back nothing but a type without a row is flagged. -/
theorem flags_toNative (type value name arg : String) :
    (toNative type value name).value.flags arg type =
      if row? type = none then [.unknownType arg type] else [] := by
  cases found : row? type with
  | none =>
    unfold toNative
    rw [found]
    rfl
  | some row =>
    rw [toNative_eq found]
    simp [Conversion.flags, Conversion.isUnknown, source_ne_unknown]

end Mapping

/-! ### Handlers -/

namespace ScriptArg

theorem knownLength_ne_none {a : ScriptArg} :
    a.knownLength ≠ none ↔ a.length ≠ none ∨ a.param.size ≠ none := by
  unfold knownLength
  cases a.length <;> simp

/-- What listeners get comes from one conversion of the argument, be it as it is or cast. -/
theorem exists_eventValue (a : ScriptArg) : ∃ value,
    (value = a.name ∨ value = s!"(void*){a.name}") ∧
      a.eventValue.value.1.expr = (toScript a.type value a.knownLength).value.expr ∧
      a.eventValue.value.2 = (toScript a.type value a.knownLength).value.flags a.name a.type := by
  simp only [eventValue, Logged.value_bind]
  split
  · exact ⟨_, .inr rfl, rfl, Conversion.value_note _ _ _⟩
  · exact ⟨_, .inl rfl, rfl, Conversion.value_note _ _ _⟩

/-- The flags of an argument that is handed to listeners. Its length may be that of another argument
or a declared one. -/
def EventFlags (a : ScriptArg) : List Flag → Prop :=
  ValueFlags a.type a.name (a.length ≠ none ∨ a.param.size ≠ none)

theorem eventFlags (a : ScriptArg) : a.EventFlags a.eventValue.value.2 := by
  obtain ⟨value, -, -, flags⟩ := a.exists_eventValue
  rw [flags, EventFlags, ← propext knownLength_ne_none]
  exact valueFlags_toScript a.type value a.name a.knownLength

end ScriptArg

/-! ### Bindings -/

namespace Declaration

/-- The native call converts a parameter: it is no place for a trace result, no array that is copied
and no length. -/
structure IsConverted (d : Declaration) (p : Parameter) : Prop where
  noResult : d.traceResult? ≠ some p
  single : ∀ a ∈ d.scriptArgs, a.param = p → a.length = none
  noLength : ∀ a ∈ d.scriptArgs, a.length ≠ some p.name

/-- The flags of a parameter of the native call. -/
inductive CallFlags (d : Declaration) (p : Parameter) : List Flag → Prop where
  | unmapped (converted : d.IsConverted p) (unlisted : row? p.type = none) :
      CallFlags d p [.unknownType p.name p.type]
  | mapped {row : Mapping.Row} (listed : row? p.type = some row) : CallFlags d p []
  | setUp (staged : ¬ d.IsConverted p) : CallFlags d p []

/-- The flags of the result of the native call. -/
inductive ResultFlags (d : Declaration) : List Flag → Prop where
  | nothing (void : d.returnType = "void") : ResultFlags d []
  | text (chars : canonical d.returnType = "char*" ∨ canonical d.returnType = "const char*") :
      ResultFlags d []
  | value {flags : List Flag} (returns : d.returnType ≠ "void")
      (noText : canonical d.returnType ≠ "char*" ∧ canonical d.returnType ≠ "const char*")
      (raised : ValueFlags d.returnType "return" False flags) : ResultFlags d flags

/-- Only a converted argument can be flagged. -/
theorem flags_callArg (d : Declaration) (p : Parameter) : (d.callArg p).value.2 =
    match (d.callArg p).value.1 with
    | .converted c => c.flags p.name p.type
    | _ => [] := by
  unfold callArg
  split
  · rfl
  split
  · rfl
  split
  · rfl
  split
  · rfl
  · exact Conversion.value_note _ _ _

theorem DistinctNames.callFlags {d : Declaration} (distinct : d.DistinctNames) {p : Parameter}
    (member : p ∈ d.fixed) : d.CallFlags p (d.callArg p).value.2 := by
  have passed := distinct.callArg_passedAs member
  rw [flags_callArg]
  generalize (d.callArg p).value.1 = c at passed ⊢
  cases passed with
  | traceResult out => exact .setUp fun converted => converted.noResult out
  | array out passed own folded =>
    refine .setUp fun converted => ?_
    rw [converted.single _ (List.mem_filter.mp passed).1 own] at folded
    cases folded
  | length out array absorbed => exact .setUp fun converted => converted.noLength _ array absorbed
  | @converted out index a place own single kept =>
    dsimp only
    rw [flags_toNative]
    split
    · rename_i unlisted
      refine .unmapped ⟨out, fun b listed same => ?_, kept⟩ unlisted
      have here := (List.mem_filter.mp (List.mem_of_getElem? place)).1
      have one : b = a := List.inj_on_of_nodup_map distinct.scriptArgs_nodup listed here
        (congrArg Parameter.name (same.trans own.symm))
      rw [one, single]
    · rename_i listed
      obtain ⟨row, found⟩ := Option.ne_none_iff_exists'.mp listed
      exact .mapped found

theorem isText_iff {type : String} :
    isText type = true ↔ canonical type = "char*" ∨ canonical type = "const char*" := by
  rw [isText, Bool.or_eq_true, beq_iff_eq, beq_iff_eq]

theorem resultFlags (d : Declaration) (call : String) :
    d.ResultFlags (d.outcome call).value.2 := by
  unfold outcome
  split
  · rename_i void
    exact .nothing (beq_iff_eq.mp void)
  split
  · rename_i text
    exact .text (isText_iff.mp text)
  · rename_i returns noText
    rw [isText_iff, not_or] at noText
    refine .value (fun void => returns (beq_iff_eq.mpr void)) noText ?_
    rw [Logged.value_bind, Logged.value_bind, Conversion.value_note, Logged.value_pure]
    have raised := valueFlags_toScript d.returnType call "return" none
    rwa [ne_eq, eq_self_iff_true, not_true] at raised

/-- A binding has the flags of its arguments, then those of its result. -/
theorem flags_callBody (d : Declaration) (table : Table) : ∃ call,
    (d.callBody table).value.2 =
      d.fixed.flatMap (fun p => (d.callArg p).value.2) ++ (d.outcome call).value.2 := by
  simp only [callBody, Logged.value_bind, Logged.value_pure, Logged.value_forEach, List.flatMap_map]
  exact ⟨_, rfl⟩

end Declaration

theorem Binding.statusOf_flagged_iff {flags : List Flag} :
    (∃ reason, statusOf flags = .flagged reason) ↔ ∃ arg type, .unknownType arg type ∈ flags := by
  have marked : flags.any (·.isUnknownType) = true ↔ ∃ arg type, .unknownType arg type ∈ flags := by
    rw [List.any_eq_true]
    constructor
    · rintro ⟨f, member, unknown⟩
      cases f with
      | unknownType arg type => exact ⟨arg, type, member⟩
      | assumedLength => cases unknown
    · rintro ⟨arg, type, member⟩
      exact ⟨_, member, rfl⟩
  rw [← marked, statusOf]
  split
  · rename_i unknown
    exact iff_of_true ⟨_, rfl⟩ unknown
  · rename_i known
    exact iff_of_false (by simp) known

/-! ### Comments -/

namespace Declaration

def flagComment (f : Flag) : String := s!"// FLAGGED: {f.message}"

/-- Above a binding stand its usage and its flags, and no other line starts as a comment. -/
theorem shown_bindingDef (g : GlueSettings) (table : Table) (d : Declaration) (flags : List Flag)
    (statements : List String) : ∃ code,
    (d.bindingDef g table flags statements).shown Layout.defaultUnit =
      s!"// {g.scriptNamespace}.{table.key}.{d.scriptName}();" :: flags.map flagComment ++ code ∧
      ∀ l ∈ code, Text.startsWith l "//" = false := by
  refine ⟨[(d.bindingDef g table flags statements).signature, "\x7b"] ++
    (d.bindingDef g table flags statements).body.map (Layout.indented Layout.defaultUnit 1) ++
      ["\x7d"], ?_, ?_⟩
  · have comments : (flags.map fun f => s!"FLAGGED: {f.message}").map ("// " ++ ·) =
        flags.map flagComment := by
      rw [List.map_map]
      refine List.map_congr_left fun f _ => ?_
      exact String.append_assoc.symm
    have usage : "// " ++ s!"{g.scriptNamespace}.{table.key}.{d.scriptName}();" =
        s!"// {g.scriptNamespace}.{table.key}.{d.scriptName}();" := by
      simp [toString, String.append_assoc]
    rw [FunctionDef.shown, bindingDef, List.map_cons, comments, usage]
    rfl
  · have indented (l : String) : Text.startsWith (Layout.indented Layout.defaultUnit 1 l) "//" =
        false := by
      by_cases empty : l = ""
      · rw [empty]
        rfl
      · rw [Layout.indented_one empty, Text.startsWith, String.toList_append]
        rfl
    intro l member
    simp only [List.mem_append, List.mem_cons, List.not_mem_nil, or_false, List.mem_map] at member
    rcases member with ((rfl | rfl) | ⟨t, -, rfl⟩) | rfl
    · simp only [bindingDef, Text.startsWith, String.toList_append]
      rfl
    · rfl
    · exact indented t
    · rfl

/-! ### All flags -/

/-- What is flagged in the code that is generated for a function. -/
structure FlagsExact (g : GlueSettings) (table : Table) (phase : Phase) (d : Declaration) :
    Prop where
  event : ∃ h each, (d.eventSlot g table phase).value = .handler h ∧
    List.Forall₂ ScriptArg.EventFlags d.scriptArgs each ∧ h.flags = each.flatten
  api : ∃ each last, List.Forall₂ d.CallFlags d.fixed each ∧ d.ResultFlags last ∧
    (d.binding g table).value.flags = each.flatten ++ last
  status : (d.binding g table).value.status ≠ .unparsable ∧
    ((∃ reason, (d.binding g table).value.status = .flagged reason) ↔
      ∃ arg type, .unknownType arg type ∈ (d.binding g table).value.flags)
  comments : ∃ f code, (d.binding g table).value.definition = some f ∧
    f.source = Text.unlines (s!"// {g.scriptNamespace}.{table.key}.{d.scriptName}();" ::
      (d.binding g table).value.flags.map flagComment ++ code) ∧
    ∀ l ∈ code, Text.startsWith l "//" = false

/-- Handlers and bindings are flagged for what they rely on and for nothing else. -/
theorem flags_exact (g : GlueSettings) (table : Table) (phase : Phase) {d : Declaration}
    (readable : d.isUnparsable = false) (distinct : d.DistinctNames)
    (generic : g.custom table d.name = none) : d.FlagsExact g table phase := by
  have body : d.bindingFlags g table = (d.callBody table).value.2 := by
    rw [bindingFlags, generic]
    rfl
  have bound := @binding_readable g table d readable
  rw [body] at bound
  exact {
    event := by
      obtain ⟨h, slot, -, flags⟩ :=
        eventSlot_dispatch readable (by rw [generic, Option.bind_none]) phase
      refine ⟨h, d.scriptArgs.map (·.eventValue.value.2), slot, ?_, ?_⟩
      · exact List.forall₂_map_right_iff.mpr (List.forall₂_same.mpr fun a _ => a.eventFlags)
      · rw [flags, flags_dispatch, List.flatMap_def]
    api := by
      obtain ⟨call, flags⟩ := d.flags_callBody table
      refine ⟨d.fixed.map fun p => (d.callArg p).value.2, (d.outcome call).value.2, ?_,
        d.resultFlags call, ?_⟩
      · exact List.forall₂_map_right_iff.mpr
          (List.forall₂_same.mpr fun p member => distinct.callFlags member)
      · rw [bound, flags, List.flatMap_def]
    status := by
      rw [bound]
      refine ⟨?_, Binding.statusOf_flagged_iff⟩
      dsimp only
      rw [Binding.statusOf]
      split <;> simp
    comments := by
      obtain ⟨code, shown, plain⟩ := d.shown_bindingDef g table (d.callBody table).value.2
        (d.bindingStatements g table)
      refine ⟨d.bindingBody g table, code, by rw [bound], ?_, plain⟩
      rw [FunctionDef.source_eq, bindingBody, body, shown, bound] }

/-- Arrays whose lengths are another parameter, not known and declared, constant memory and types
that have no rows. -/
def samplePanel : Declaration where
  name := "pfnPanel"
  returnType := "model_t *"
  args := [.fixed ⟨"points", "const float *", none⟩, .fixed ⟨"pointsLength", "int", none⟩,
    .fixed ⟨"origin", "float *", none⟩, .fixed ⟨"bits", "byte*", some 4⟩,
    .fixed ⟨"data", "const void *", none⟩, .fixed ⟨"panel", "panel_t", none⟩]
  text := "model_t *(*pfnPanel)(const float *points, int pointsLength, float *origin, " ++
    "byte bits[4], const void *data, panel_t panel);"
  line := 1

/-- Listeners get an origin of assumed length, scripts hand over no array of that kind, and neither
can do with the types that have no rows. -/
theorem flags_exact_panel :
    ofLine samplePanel.text 1 = pure samplePanel ∧ samplePanel.isUnparsable = false ∧
      samplePanel.DistinctNames ∧ CustomProvider.none .engine samplePanel.name = none ∧
      (samplePanel.dispatch none).value.2 =
        [.assumedLength "origin" 3, .unknownType "panel" "panel_t"] ∧
      (samplePanel.callBody .engine).value.2 =
        [.unknownType "panel" "panel_t", .unknownType "return" "model_t *"] ∧
      samplePanel.FlagsExact { custom := CustomProvider.none } .engine .base :=
  ⟨by decide +kernel, by decide, by decide, rfl, by decide +kernel, by decide +kernel,
    flags_exact { custom := CustomProvider.none } .engine .base (by decide) (by decide) rfl⟩

end Declaration

end ScriptGlue
