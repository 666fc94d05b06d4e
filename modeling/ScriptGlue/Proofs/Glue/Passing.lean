import ScriptGlue.Glue.Binding
import ScriptGlue.Proofs.Declaration.Folding

/-!
# Passing arguments to the native call

The native call looks its arguments up by name among those that callers pass. For a function whose
parameters have distinct names that look-up always finds the parameter itself: each is passed as
the variable that was set up for it, or converted from the script argument at its own place, and
none is reported missing.
-/
namespace ScriptGlue

open Code Mapping

namespace Declaration

/-- The folded arguments without the one that the function writes its trace result to. -/
def passedArgs (d : Declaration) : List ScriptArg :=
  d.scriptArgs.filter fun a => d.traceResult? ≠ some a.param

/-- How the native call has to pass a parameter: a trace result by address, an array or a length as
the variable that was set up for it, all else converted from the script argument at the place that
the parameter itself has among those that callers pass. -/
inductive PassedAs (d : Declaration) (p : Parameter) : CallArg → Prop where
  | traceResult (out : d.traceResult? = some p) : PassedAs d p (.traceResult p.name)
  | array (out : d.traceResult? ≠ some p) {a : ScriptArg} (passed : a ∈ d.passedArgs)
      (own : a.param = p) (folded : a.length.isSome) : PassedAs d p (.staged p.name)
  | length (out : d.traceResult? ≠ some p) {a : ScriptArg} (array : a ∈ d.scriptArgs)
      (absorbed : a.length = some p.name) : PassedAs d p (.staged p.name)
  | converted (out : d.traceResult? ≠ some p) {index : Nat} {a : ScriptArg}
      (place : d.passedArgs[index]? = some a) (own : a.param = p) (single : a.length = none)
      (kept : ∀ b ∈ d.scriptArgs, b.length ≠ some p.name) :
      PassedAs d p (.converted (toNative p.type s!"info[{index}]" p.name).value)

/-- What is kept of each place, place by place. -/
theorem flatMap_filterMap_mapIdx {α β γ : Type} (kept : Nat → α → Option β) (part : β → List γ)
    (l : List α) : ((l.mapIdx kept).filterMap id).flatMap part =
      (l.mapIdx fun i a => (kept i a).toList.flatMap part).flatten := by
  induction l generalizing kept with
  | nil => rfl
  | cons a r ih =>
    have later := ih fun i => kept (i + 1)
    rw [List.mapIdx_cons, List.mapIdx_cons, List.flatten_cons, ← later]
    cases kept 0 a with
    | none => rfl
    | some b => simp

/-- Where the place makes no difference, neither do the gaps. -/
theorem flatMap_filterMap_of_same {α β γ : Type} {kept : Nat → α → Option β} {part : β → List γ}
    {each : α → List γ} (same : ∀ i a, (kept i a).toList.flatMap part = each a) (l : List α) :
    ((l.mapIdx kept).filterMap id).flatMap part = l.flatMap each := by
  have places : (l.mapIdx fun i a => (kept i a).toList.flatMap part) = l.map each :=
    List.ext_getElem (by simp) (by simp [same])
  rw [flatMap_filterMap_mapIdx, places, List.flatMap]

theorem traceResult?_mem {d : Declaration} {p : Parameter} (out : d.traceResult? = some p) :
    p ∈ d.fixed := by
  unfold traceResult? at out
  split at out
  · exact List.mem_of_find?_eq_some out
  · cases out

theorem isLengthName_iff {d : Declaration} {name : String} :
    d.isLengthName name = true ↔ ∃ a ∈ d.scriptArgs, a.length = some name := by
  simp [isLengthName, List.any_eq_true]

namespace DistinctNames

variable {d : Declaration} (distinct : d.DistinctNames)
include distinct

/-- The trace result can be told by its name. -/
theorem traceResult?_any {p : Parameter} (member : p ∈ d.fixed) :
    d.traceResult?.any (·.name = p.name) = true ↔ d.traceResult? = some p := by
  cases found : d.traceResult? with
  | none => simp
  | some out =>
    have key : out.name = p.name ↔ out = p :=
      ⟨distinct.param_eq (traceResult?_mem found) member, fun same => same ▸ rfl⟩
    simp [key]

/-- Leaving out by name is leaving out the trace result itself. -/
theorem callerArgs_eq : d.callerArgs = d.passedArgs := by
  unfold callerArgs passedArgs
  cases found : d.traceResult? with
  | none => simp
  | some out =>
    apply List.filter_congr
    intro a member
    have key : a.name = out.name ↔ out = a.param := by
      constructor
      · intro same
        exact (distinct.param_eq (scriptArgs_param_mem member) (traceResult?_mem found) same).symm
      · rintro rfl
        rfl
    simp [key]

/-- A parameter that is no trace result and no length is passed, at a place of its own. -/
theorem findIdx?_passedArgs {p : Parameter} (member : p ∈ d.fixed)
    (out : d.traceResult? ≠ some p) (kept : ∀ b ∈ d.scriptArgs, b.length ≠ some p.name) :
    ∃ index a, d.passedArgs.findIdx? (·.name = p.name) = some index ∧
      d.passedArgs[index]? = some a ∧ a.param = p := by
  obtain ⟨a, ha, rfl⟩ | ⟨a, ha, absorbed⟩ := foldArgs_kept_or_absorbed member
  · have passed : a ∈ d.passedArgs := List.mem_filter.mpr ⟨ha, by simpa using out⟩
    cases found : d.passedArgs.findIdx? (·.name = a.param.name) with
    | none =>
      have absent := List.findIdx?_eq_none_iff.mp found a passed
      simp [ScriptArg.name] at absent
    | some index =>
      obtain ⟨bound, same, -⟩ := List.findIdx?_eq_some_iff_getElem.mp found
      have here : d.passedArgs[index] ∈ d.scriptArgs :=
        (List.mem_filter.mp (List.getElem_mem bound)).1
      refine ⟨index, d.passedArgs[index], rfl, List.getElem?_eq_getElem bound, ?_⟩
      exact distinct.param_eq (scriptArgs_param_mem here) member (of_decide_eq_true same)
  · exact absurd absorbed (kept a ha)

/-- The native call passes every parameter the way it has to. -/
theorem callArg_passedAs {p : Parameter} (member : p ∈ d.fixed) :
    d.PassedAs p (d.callArg p).value.1 := by
  unfold callArg
  split
  · rename_i named
    exact .traceResult ((distinct.traceResult?_any member).mp named)
  · rename_i unnamed
    have out : d.traceResult? ≠ some p := fun found =>
      unnamed ((distinct.traceResult?_any member).mpr found)
    split
    · rename_i length
      obtain ⟨a, array, absorbed⟩ := isLengthName_iff.mp length
      exact .length out array absorbed
    · rename_i noLength
      have kept : ∀ b ∈ d.scriptArgs, b.length ≠ some p.name := fun b hb absorbed =>
        noLength (isLengthName_iff.mpr ⟨b, hb, absorbed⟩)
      obtain ⟨index, a, found, place, own⟩ := distinct.findIdx?_passedArgs member out kept
      simp only [distinct.callerArgs_eq, found, place, Option.any_some]
      split
      · rename_i folded
        exact .array out (List.mem_of_getElem? place) own folded
      · rename_i single
        exact .converted out place own (by simpa using single) kept

end DistinctNames

/-! ### Variables set up before the call -/

/-- A pointer is never spelled as the vector type, so each folded array is copied as an array. -/
theorem isVector_of_isPointerType {type : String} (pointer : isPointerType type = true) :
    isVector type = false := by
  have stars : 0 < pointerDepth type :=
    List.count_pos_iff.mpr (by simpa [isPointerType] using pointer)
  have starred : '*' ∈ (canonical type).toList := by
    simp only [canonical, String.toList_append, String.toList_ofList]
    exact List.mem_append_right _ (List.mem_replicate.mpr ⟨Nat.ne_of_gt stars, rfl⟩)
  have unstarred : '*' ∉ "vec3_t".toList := by decide
  simp only [isVector, beq_eq_false_iff_ne]
  intro same
  exact unstarred (same ▸ starred)

section Staged

variable {d : Declaration}

theorem mem_callStaging {s : Staging} :
    s ∈ d.callStaging ↔ (∃ p, d.traceResult? = some p ∧ .traceResult p.name = s) ∨
      ∃ index a, d.callerArgs[index]? = some a ∧ d.staging? index a = some s := by
  simp only [callStaging, List.mem_append, List.mem_map, Option.mem_toList, List.mem_filterMap,
    List.mem_mapIdx, id_eq]
  constructor
  · rintro (⟨p, found, same⟩ | ⟨_, ⟨index, bound, rfl⟩, staged⟩)
    · exact Or.inl ⟨p, found, same⟩
    · exact Or.inr ⟨index, _, List.getElem?_eq_getElem bound, staged⟩
  · rintro (⟨p, found, same⟩ | ⟨index, a, place, staged⟩)
    · exact Or.inl ⟨p, found, same⟩
    · obtain ⟨bound, rfl⟩ := List.getElem?_eq_some_iff.mp place
      exact Or.inr ⟨_, ⟨index, bound, rfl⟩, staged⟩

theorem callerArgs_sublist (d : Declaration) : d.callerArgs.Sublist d.scriptArgs := by
  unfold callerArgs
  split
  · exact List.filter_sublist
  · exact List.Sublist.refl _

theorem callerArgs_subset (d : Declaration) : d.callerArgs ⊆ d.scriptArgs :=
  d.callerArgs_sublist.subset

/-- Each folded array that callers pass is copied, from its own place. -/
theorem array_mem_callStaging {index : Nat} {a : ScriptArg} {length : String}
    (place : d.callerArgs[index]? = some a) (folded : a.length = some length) :
    .array (d.stagedArray index a length) ∈ d.callStaging := by
  have member : a ∈ d.scriptArgs := callerArgs_subset d (List.mem_of_getElem? place)
  have pointer := (foldArgs_isPointer member (by simp [folded])).1
  refine mem_callStaging.mpr (Or.inr ⟨index, a, place, ?_⟩)
  simp [staging?, isVector_of_isPointerType pointer, folded]

end Staged

namespace DistinctNames

variable {d : Declaration} (distinct : d.DistinctNames)
include distinct

theorem mem_callStaging {s : Staging} :
    s ∈ d.callStaging ↔ (∃ p, d.traceResult? = some p ∧ .traceResult p.name = s) ∨
      ∃ index a, d.passedArgs[index]? = some a ∧ d.staging? index a = some s := by
  rw [Declaration.mem_callStaging, distinct.callerArgs_eq]

end DistinctNames

/-! ### Generated bodies -/

/-- The arguments of the native call, one for each parameter. -/
theorem callBody_args (d : Declaration) (table : Table) :
    (d.callBody table).value.1.args = d.fixed.map fun p => (d.callArg p).value.1 := by
  simp only [callBody, Logged.value_bind, Logged.value_pure, Logged.value_forEach, List.map_map]
  rfl

/-- Without a body written by hand, the emitted definition is that of the generated body. -/
theorem binding_definition {g : GlueSettings} {table : Table} {d : Declaration}
    (readable : d.isUnparsable = false)
    (generic : (g.custom table d.name).bind (·.apiBody) = none) :
    (d.binding g table).value.definition =
      some (d.bindingDef g table (d.callBody table).value.2
        ((d.callBody table).value.1.statements d.name)) := by
  simp only [binding, readable, generic, Bool.false_eq_true, if_false, Logged.value_bind]
  split <;> rfl

end Declaration

end ScriptGlue
