import ScriptGlue.Declaration.Reading
import ScriptGlue.Proofs.Glue.Passing
import ScriptGlue.Proofs.Mapping.Counted

/-!
# Elements of staged arrays

A binding copies a script array into a native buffer and hands the buffer to the function in place
of the array. The buffer has elements of one of three types, while any pointer folds with its
length. So the buffer is what the function expects for single pointers to floats, integers and
bytes; all others get a buffer of integers, whatever they point to.
-/
namespace ScriptGlue

open Code Mapping

namespace Mapping

/-- What a pointer points to, without qualifiers. A byte is spelled out. -/
def pointee (type : String) : String :=
  (if baseName type = "byte" then "unsigned char" else baseName type) ++
    String.ofList (List.replicate (pointerDepth type - 1) '*')

end Mapping

namespace Declaration

def stagedNames : List String := ["float", "int", "byte"]

/-- A buffer is never one of pointers. -/
theorem star_not_mem_elementOf (type : String) : '*' ∉ (elementOf type).1.toList := by
  unfold elementOf
  dsimp only
  split
  · decide
  split
  · decide
  · decide

/-- At single pointers the element is what is pointed to for the types that buffers are made for. -/
theorem elementOf_eq_iff {type : String} (other : baseName type ≠ "unsigned char") :
    (elementOf type).1 = (if baseName type = "byte" then "unsigned char" else baseName type) ↔
      baseName type ∈ stagedNames := by
  unfold elementOf
  dsimp only
  generalize baseName type = base at other ⊢
  by_cases float : base = "float"
  · subst float
    decide
  by_cases byte : base = "byte"
  · subst byte
    decide
  have kept : ¬ ((base = "unsigned char" || base = "byte") = true) := by simp [other, byte]
  rw [if_neg float, if_neg byte, if_neg kept]
  simp [stagedNames, float, byte, eq_comm]

theorem elementOf_eq_pointee_iff {type : String} (pointer : isPointerType type = true)
    (plain : isCharPointerType type = false) :
    (elementOf type).1 = pointee type ↔ pointerDepth type = 1 ∧ baseName type ∈ stagedNames := by
  have other : baseName type ≠ "unsigned char" := by
    intro chars
    have text := isCharPointerType_iff pointer (by rw [chars]; decide)
    rw [text.mpr chars] at plain
    cases plain
  have depth := isPointerType_iff.mp pointer
  rw [← elementOf_eq_iff other, pointee]
  by_cases single : pointerDepth type = 1
  · rw [single, Nat.sub_self, List.replicate_zero, String.ofList_nil, String.append_empty]
    exact (and_iff_right rfl).symm
  · refine iff_of_false (fun same => ?_) fun both => single both.1
    have star : '*' ∈ (elementOf type).1.toList := by
      rw [same, String.toList_append, String.toList_ofList]
      exact List.mem_append_right _ (List.mem_replicate.mpr ⟨by omega, rfl⟩)
    exact star_not_mem_elementOf type star

/-- A generated binding allocates a buffer for every folded array that callers pass. The elements of
the buffer are of the type that the array points to exactly for single pointers to floats, integers
and bytes. -/
theorem stagedElement_eq_iff (g : GlueSettings) (table : Table) {d : Declaration}
    (readable : d.isUnparsable = false)
    (generic : (g.custom table d.name).bind (·.apiBody) = none) :
    ∃ (body : CallBody) (flags : List Flag),
      (d.binding g table).value.definition =
        some (d.bindingDef g table flags (body.statements d.name)) ∧
      ∀ (index : Nat) (a : ScriptArg) (length : String), d.callerArgs[index]? = some a →
        a.length = some length →
          ∃ s, .array s ∈ body.staging ∧ s.name = a.name ∧ s.length = length ∧ s.index = index ∧
            s!"{s.element}* {a.name} = new {s.element}[{length}];" ∈ body.statements d.name ∧
            (s.element = pointee a.type ↔
              pointerDepth a.type = 1 ∧ baseName a.type ∈ stagedNames) := by
  refine ⟨(d.callBody table).value.1, (d.callBody table).value.2,
    binding_definition readable generic, fun index a length place folded => ?_⟩
  have member : a ∈ d.scriptArgs := callerArgs_subset d (List.mem_of_getElem? place)
  obtain ⟨pointer, plain⟩ := foldArgs_isPointer member (by rw [folded]; rfl)
  have staged : .array (d.stagedArray index a length) ∈ (d.callBody table).value.1.staging :=
    array_mem_callStaging place folded
  refine ⟨_, staged, rfl, rfl, rfl, ?_, elementOf_eq_pointee_iff pointer plain⟩
  have allocated : s!"{(elementOf a.type).1}* {a.name} = new {(elementOf a.type).1}[{length}];" ∈
      (Staging.array (d.stagedArray index a length)).statements := by
    simp [Staging.statements, StagedArray.statements, stagedArray]
  have staging : (Staging.array (d.stagedArray index a length)).statements ⊆
      (d.callBody table).value.1.staging.flatMap (·.statements) :=
    fun line inside => List.mem_flatMap.mpr ⟨_, staged, inside⟩
  rw [CallBody.statements, List.append_assoc, List.append_assoc]
  exact List.mem_append_left _ (staging allocated)

/-- Floats that are handed over with their number. -/
def sampleFloats : Declaration where
  name := "pfnSend"
  returnType := "void"
  args := [.fixed ⟨"data", "const float *", none⟩, .fixed ⟨"dataLength", "int", none⟩]
  text := "void (*pfnSend)(const float *data, int dataLength);"
  line := 1

/-- They are copied as floats. -/
theorem stagedElement_floats :
    ofLine sampleFloats.text 1 = pure sampleFloats ∧ sampleFloats.isUnparsable = false ∧
      ∃ body flags,
        (sampleFloats.binding { custom := CustomProvider.none } .engine).value.definition =
          some (sampleFloats.bindingDef { custom := CustomProvider.none } .engine flags
            (CallBody.statements "pfnSend" body)) ∧
        ∃ s, .array s ∈ body.staging ∧ s.name = "data" ∧ s.element = "float" := by
  obtain ⟨body, flags, definition, staged⟩ :=
    stagedElement_eq_iff { custom := CustomProvider.none } .engine (d := sampleFloats) rfl rfl
  have args : sampleFloats.callerArgs = [.array ⟨"data", "const float *", none⟩ "dataLength"] := by
    decide +kernel
  obtain ⟨s, member, name, -, -, -, element⟩ := staged 0 _ "dataLength" (by rw [args]; rfl) rfl
  have fits : pointerDepth "const float *" = 1 ∧ baseName "const float *" ∈ stagedNames := by
    decide +kernel
  have spelled : pointee "const float *" = "float" := by decide +kernel
  exact ⟨by decide +kernel, rfl, body, flags, definition, s, member, name,
    (element.mpr fits).trans spelled⟩

/-- Numbers of twice the size. -/
def sampleDoubles : Declaration where
  name := "pfnSend"
  returnType := "void"
  args := [.fixed ⟨"data", "double *", none⟩, .fixed ⟨"dataLength", "int", none⟩]
  text := "void (*pfnSend)(double *data, int dataLength);"
  line := 1

/-- A binding that counts as ready hands a buffer of integers to a function that expects one of
doubles. -/
theorem not_pointee_doubles :
    ofLine sampleDoubles.text 1 = pure sampleDoubles ∧ pointee "double *" = "double" ∧
      sampleDoubles.callerArgs = [.array ⟨"data", "double *", none⟩ "dataLength"] ∧
      (sampleDoubles.binding { custom := CustomProvider.none } .engine).value.status = .ready ∧
      (sampleDoubles.callBody .engine).value.1.statements "pfnSend" =
        ["",
          "// Convert script array to int array for data",
          "v8::Local<v8::Array> data_array = v8::Local<v8::Array>::Cast(info[0]);",
          "int dataLength = data_array->Length();",
          "int* data = new int[dataLength];",
          "for (int j = 0; j < (int)dataLength; j++) \x7b",
          "  data[j] = data_array->Get(context, j).ToLocalChecked()" ++
            "->Int32Value(context).ToChecked();",
          "\x7d",
          "",
          "(*g_engfuncs.pfnSend)(data, dataLength);",
          "delete[] data; // Free allocated array"] :=
  ⟨by decide +kernel, by decide +kernel, by decide +kernel, by decide +kernel, by decide +kernel⟩

end Declaration

end ScriptGlue
