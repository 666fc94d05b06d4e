import ScriptGlue.Declaration.Reading
import ScriptGlue.Proofs.Declaration.ArgumentNames
import ScriptGlue.Proofs.Glue.Passing
import ScriptGlue.Proofs.Mapping.Rows

/-!
# Local variables of bindings

What a generated binding sets up before the native call are local variables, whose names are derived
from those of parameters: `p_result` for a trace result, `p_vec` for a vector, and `p_array`, `p`
and the name of its length for an array. The list of arguments, the result and the clean-up name
them again. So a binding is closed if each variable that a statement names has been declared once,
by a statement before it. Two things stand in the way. Names that differ may have the same names
derived from them, and a trace result that is followed by a length takes the length from scripts
without setting it up.
-/
namespace ScriptGlue

open Code Mapping

/-- A statement of a binding with what it does to local variables. The counter of a loop is not
counted, as it is gone after the loop. -/
structure Statement where
  lines : List String
  declares : List String := []
  uses : List String := []
  /-- Variables that get new memory. -/
  allocates : List String := []
  /-- Variables whose memory is freed. -/
  releases : List String := []
  /-- Whether it is the statement of the native call. -/
  calls : Bool := false

namespace Statement

/-- Every variable that a statement uses is known or declared by a statement before it. -/
def DeclaredBefore (known : List String) : List Statement → Prop
  | [] => True
  | s :: r => (∀ x ∈ s.uses, x ∈ known) ∧ DeclaredBefore (known ++ s.declares) r

/-- Every variable that is used is declared exactly once, and earlier. -/
structure Closed (ss : List Statement) : Prop where
  earlier : DeclaredBefore [] ss
  once : ∀ x ∈ ss.flatMap (·.uses), (ss.flatMap (·.declares)).count x = 1

/-- All memory is allocated before the native call and freed after it, each exactly once. -/
def ReleasesOnce (ss : List Statement) : Prop :=
  ∀ x ∈ ss.flatMap (·.allocates), (ss.flatMap (·.allocates)).count x = 1 ∧
    (ss.flatMap (·.releases)).count x = 1 ∧
    ∃ before call after, ss = before ++ call :: after ∧ call.calls = true ∧
      x ∈ before.flatMap (·.allocates) ∧ x ∈ after.flatMap (·.releases)

/-- The statements behind others may use what those declare. -/
theorem declaredBefore_append {known : List String} {a b : List Statement} :
    DeclaredBefore known (a ++ b) ↔
      DeclaredBefore known a ∧ DeclaredBefore (known ++ a.flatMap (·.declares)) b := by
  induction a generalizing known with
  | nil => simp [DeclaredBefore]
  | cons s r ih => simp [DeclaredBefore, ih, and_assoc, List.append_assoc]

theorem DeclaredBefore.mono {known more : List String} {ss : List Statement}
    (known_sub : known ⊆ more) (declared : DeclaredBefore known ss) : DeclaredBefore more ss := by
  induction ss generalizing known more with
  | nil => trivial
  | cons s r ih =>
    refine ⟨fun x used => known_sub (declared.1 x used), ih ?_ declared.2⟩
    exact List.append_subset.mpr ⟨List.Subset.trans known_sub (List.subset_append_left _ _),
      List.subset_append_right _ _⟩

/-- Statements that use nothing but their own variables can follow any others. -/
theorem declaredBefore_flatMap {α : Type} {f : α → List Statement} {l : List α}
    (own : ∀ a ∈ l, DeclaredBefore [] (f a)) (known : List String) :
    DeclaredBefore known (l.flatMap f) := by
  induction l generalizing known with
  | nil => trivial
  | cons a r ih =>
    rw [List.flatMap_cons]
    refine declaredBefore_append.mpr ⟨(own a List.mem_cons_self).mono (List.nil_subset _), ?_⟩
    exact ih (fun b member => own b (List.mem_cons_of_mem _ member)) _

/-- Statements that declare nothing may use what is known. -/
theorem declaredBefore_of_uses {known : List String} {ss : List Statement}
    (uses : ∀ x ∈ ss.flatMap (·.uses), x ∈ known) : DeclaredBefore known ss := by
  induction ss generalizing known with
  | nil => trivial
  | cons s r ih =>
    simp only [List.flatMap_cons, List.mem_append] at uses
    exact ⟨fun x used => uses x (.inl used),
      ih fun x used => List.mem_append_left _ (uses x (.inr used))⟩

theorem mem_known_of_declaredBefore {known : List String} {ss : List Statement} {x : String}
    (declared : DeclaredBefore known ss) (used : x ∈ ss.flatMap (·.uses)) :
    x ∈ known ++ ss.flatMap (·.declares) := by
  induction ss generalizing known with
  | nil => cases used
  | cons s r ih =>
    simp only [List.flatMap_cons, List.mem_append] at used ⊢
    rcases used with here | later
    · exact .inl (declared.1 x here)
    · simpa [or_assoc] using ih declared.2 later

end Statement

/-! ### The statements of a binding -/

namespace StagedArray

def locals (a : StagedArray) : List String := [s!"{a.name}_array", a.length, a.name]

def copying (a : StagedArray) : List Statement :=
  [{ lines := ["", s!"// Convert script array to {a.element} array for {a.name}"] },
    { lines := [
        s!"v8::Local<v8::Array> {a.name}_array = v8::Local<v8::Array>::Cast(info[{a.index}]);"]
      declares := [s!"{a.name}_array"] },
    { lines := [s!"{a.lengthType} {a.length} = {a.name}_array->Length();"]
      declares := [a.length]
      uses := [s!"{a.name}_array"] },
    { lines := [s!"{a.element}* {a.name} = new {a.element}[{a.length}];"]
      declares := [a.name]
      uses := [a.length]
      allocates := [a.name] },
    { lines := [
        s!"for (int j = 0; j < (int){a.length}; j++) \x7b",
        s!"  {a.name}[j] = {a.name}_array->Get(context, j).ToLocalChecked()" ++
          s!"->{a.getter}(context).ToChecked();",
        "\x7d"]
      uses := [a.length, a.name, s!"{a.name}_array"] }]

def freeing (a : StagedArray) : Statement where
  lines := [a.release]
  uses := [a.name]
  releases := [a.name]

end StagedArray

namespace Staging

/-- The variables that setting something up declares. -/
def locals : Staging → List String
  | traceResult name => [s!"{name}_result"]
  | vector name _ => [s!"{name}_vec"]
  | array a => a.locals

def buffer? : Staging → Option String
  | array a => some a.name
  | _ => none

def setup : Staging → List Statement
  | traceResult name =>
    [{ lines := [s!"TraceResult {name}_result = \x7b\x7d;"], declares := [s!"{name}_result"] }]
  | vector name index =>
    [{ lines := [s!"vec3_t {name}_vec;"], declares := [s!"{name}_vec"] },
      { lines := [
          s!"utils::js2vect(isolate, v8::Local<v8::Array>::Cast(info[{index}]), {name}_vec);"]
        uses := [s!"{name}_vec"] }]
  | array a => a.copying

def teardown : Staging → List Statement
  | array a => [a.freeing]
  | _ => []

@[simp] theorem lines_setup (s : Staging) : s.setup.flatMap (·.lines) = s.statements := by
  cases s <;> rfl

@[simp] theorem lines_teardown (s : Staging) :
    s.teardown.flatMap (·.lines) = s.cleanup := by
  cases s <;> rfl

@[simp] theorem declares_setup (s : Staging) : s.setup.flatMap (·.declares) = s.locals := by
  cases s <;> rfl

@[simp] theorem declares_teardown (s : Staging) :
    s.teardown.flatMap (·.declares) = [] := by
  cases s <;> rfl

@[simp] theorem allocates_setup (s : Staging) :
    s.setup.flatMap (·.allocates) = s.buffer?.toList := by
  cases s <;> rfl

@[simp] theorem allocates_teardown (s : Staging) :
    s.teardown.flatMap (·.allocates) = [] := by
  cases s <;> rfl

@[simp] theorem releases_setup (s : Staging) : s.setup.flatMap (·.releases) = [] := by
  cases s <;> rfl

@[simp] theorem releases_teardown (s : Staging) :
    s.teardown.flatMap (·.releases) = s.buffer?.toList := by
  cases s <;> rfl

/-- What is set up needs no other variables. -/
theorem declaredBefore_setup (s : Staging) : Statement.DeclaredBefore [] s.setup := by
  cases s <;> simp [setup, StagedArray.copying, Statement.DeclaredBefore]

theorem uses_setup {s : Staging} {x : String} (used : x ∈ s.setup.flatMap (·.uses)) :
    x ∈ s.locals := by
  have inside := Statement.mem_known_of_declaredBefore s.declaredBefore_setup used
  rwa [declares_setup, List.nil_append] at inside

/-- Apart from a trace result, what is set up uses all its variables. -/
theorem mem_uses_setup {s : Staging} (other : ∀ name, s ≠ .traceResult name) {x : String}
    (own : x ∈ s.locals) : x ∈ s.setup.flatMap (·.uses) := by
  cases s with
  | traceResult name => exact absurd rfl (other name)
  | vector name index => simpa [setup, locals] using own
  | array a =>
    simp only [locals, StagedArray.locals, List.mem_cons, List.not_mem_nil, or_false] at own
    simp only [setup, StagedArray.copying, List.flatMap_cons, List.flatMap_nil, List.append_nil,
      List.nil_append, List.mem_append, List.mem_cons, List.not_mem_nil, or_false]
    tauto

theorem uses_teardown {s : Staging} {x : String}
    (used : x ∈ s.teardown.flatMap (·.uses)) : x ∈ s.locals := by
  cases s with
  | array a =>
    have same : x = a.name := by simpa [teardown, StagedArray.freeing] using used
    simp [locals, StagedArray.locals, same]
  | _ => cases used

end Staging

/-- The variable that an argument of the native call names, if it names one. -/
def CallArg.locals : CallArg → List String
  | traceResult name => [s!"{name}_result"]
  | staged name => [name]
  | converted c => if isIdentifier c.expr then [c.expr] else []
  | missing _ => []

namespace Outcome

def locals : Outcome → List String
  | text => ["temp_str"]
  | _ => []

/-- The statements of the native call and of its result; `used` are the variables that its arguments
name. -/
def handing (call : String) (used : List String) : Outcome → List Statement
  | nothing none => [{ lines := [s!"{call};"], uses := used, calls := true }]
  | nothing (some name) =>
    [{ lines := [s!"{call};"], uses := used, calls := true },
      { lines := [
          s!"info.GetReturnValue().Set(structures::wrapTraceResult(isolate, &{name}_result));"]
        uses := [s!"{name}_result"] }]
  | text =>
    [{ lines := [s!"const char* temp_str = {call};"]
       declares := ["temp_str"]
       uses := used
       calls := true },
      { lines := ["info.GetReturnValue().Set(v8::String::NewFromUtf8(isolate, " ++
          "temp_str ? temp_str : \"\").ToLocalChecked());"]
        uses := ["temp_str"] }]
  | value expr =>
    [{ lines := [s!"info.GetReturnValue().Set({expr});"], uses := used, calls := true }]

variable (o : Outcome) (call : String) (used : List String)

@[simp] theorem lines_handing : (o.handing call used).flatMap (·.lines) = o.statements call := by
  rcases o with (_ | name) | _ | expr <;> rfl

@[simp] theorem declares_handing : (o.handing call used).flatMap (·.declares) = o.locals := by
  rcases o with (_ | name) | _ | expr <;> rfl

@[simp] theorem allocates_handing : (o.handing call used).flatMap (·.allocates) = [] := by
  rcases o with (_ | name) | _ | expr <;> rfl

@[simp] theorem releases_handing : (o.handing call used).flatMap (·.releases) = [] := by
  rcases o with (_ | name) | _ | expr <;> rfl

/-- The native call is the first of the statements. -/
theorem handing_cons : ∃ s r, o.handing call used = s :: r ∧ s.calls = true ∧ s.uses = used := by
  rcases o with (_ | name) | _ | expr <;> exact ⟨_, _, rfl, rfl, rfl⟩

/-- They use what the arguments name, a trace result to hand on and the text of a result. -/
theorem mem_uses_handing {x : String} : x ∈ (o.handing call used).flatMap (·.uses) ↔
    x ∈ used ∨ (∃ name, o = nothing (some name) ∧ x = s!"{name}_result") ∨ x ∈ o.locals := by
  rcases o with (_ | name) | _ | expr <;> simp [handing, locals]

/-- Handing on a result uses what the arguments use, and the variable of a trace result. -/
theorem declaredBefore_handing {known : List String}
    (arguments : ∀ x ∈ used, x ∈ known)
    (result : ∀ name, o = nothing (some name) → s!"{name}_result" ∈ known) :
    Statement.DeclaredBefore known (o.handing call used) := by
  rcases o with (_ | name) | _ | expr
  · exact ⟨arguments, trivial⟩
  · have own := result name rfl
    exact ⟨arguments, by simpa using own, trivial⟩
  · exact ⟨arguments, by simp, trivial⟩
  · exact ⟨arguments, trivial⟩

end Outcome

namespace CallBody

/-- The variables that are declared before the native call. -/
def stagedLocals (b : CallBody) : List String := b.staging.flatMap (·.locals)

def locals (b : CallBody) : List String := b.stagedLocals ++ b.outcome.locals

def warnings (b : CallBody) (function : String) : Statement where
  lines :=
    let checks := b.checks.flatMap (·.statements function)
    if checks.isEmpty then [] else "" :: checks

def parts (b : CallBody) (function : String) : List Statement :=
  b.staging.flatMap (·.setup) ++ ([b.warnings function, { lines := [""] }] ++
    (b.outcome.handing (callText b.callee b.args) (b.args.flatMap (·.locals)) ++
      b.staging.flatMap (·.teardown)))

variable (b : CallBody) (function : String)

/-- Together they are the generated code. -/
theorem lines_parts : (b.parts function).flatMap (·.lines) = b.statements function := by
  simp [parts, statements, warnings, List.flatMap_append, List.flatMap_assoc]

theorem declares_parts : (b.parts function).flatMap (·.declares) = b.locals := by
  simp [parts, locals, stagedLocals, warnings, List.flatMap_append, List.flatMap_assoc]

theorem allocates_parts :
    (b.parts function).flatMap (·.allocates) = b.staging.filterMap (·.buffer?) := by
  simp [parts, warnings, List.flatMap_append, List.flatMap_assoc, List.filterMap_eq_flatMap_toList]

theorem releases_parts :
    (b.parts function).flatMap (·.releases) = b.staging.filterMap (·.buffer?) := by
  simp [parts, warnings, List.flatMap_append, List.flatMap_assoc, List.filterMap_eq_flatMap_toList]

/-- All memory of a binding is freed if no two arrays have the same name. -/
theorem releasesOnce_parts (distinct : (b.staging.filterMap (·.buffer?)).Nodup) :
    Statement.ReleasesOnce (b.parts function) := by
  intro x allocated
  rw [allocates_parts] at allocated
  have once := List.count_eq_one_of_mem distinct allocated
  refine ⟨by rw [allocates_parts, once], by rw [releases_parts, once], ?_⟩
  obtain ⟨call, results, handed, calls, -⟩ :=
    b.outcome.handing_cons (callText b.callee b.args) (b.args.flatMap (·.locals))
  refine ⟨b.staging.flatMap (·.setup) ++ [b.warnings function, { lines := [""] }], call,
    results ++ b.staging.flatMap (·.teardown), ?_, calls, ?_, ?_⟩
  · simp [parts, handed]
  · rw [List.flatMap_append, List.flatMap_assoc]
    simp [← List.filterMap_eq_flatMap_toList, allocated]
  · rw [List.flatMap_append, List.flatMap_assoc]
    simp [← List.filterMap_eq_flatMap_toList, allocated]

/-- A binding uses a variable where an array is copied, an argument passed, a result handed on or a
copy freed. -/
theorem mem_uses_parts {x : String} : x ∈ (b.parts function).flatMap (·.uses) ↔
    (∃ s ∈ b.staging, x ∈ s.setup.flatMap (·.uses)) ∨ (∃ a ∈ b.args, x ∈ a.locals) ∨
      (∃ name, b.outcome = .nothing (some name) ∧ x = s!"{name}_result") ∨ x ∈ b.outcome.locals ∨
      ∃ s ∈ b.staging, x ∈ s.teardown.flatMap (·.uses) := by
  have flat : (b.parts function).flatMap (·.uses) =
      b.staging.flatMap (fun s => s.setup.flatMap (·.uses)) ++
        ((b.outcome.handing (callText b.callee b.args) (b.args.flatMap (·.locals))).flatMap
          (·.uses) ++ b.staging.flatMap fun s => s.teardown.flatMap (·.uses)) := by
    simp [parts, warnings, List.flatMap_append, List.flatMap_assoc]
  rw [flat, List.mem_append, List.mem_append, Outcome.mem_uses_handing, or_assoc, or_assoc,
    List.mem_flatMap, List.mem_flatMap, List.mem_flatMap]

theorem declaredBefore_parts : Statement.DeclaredBefore [] (b.parts function) ↔
    Statement.DeclaredBefore b.stagedLocals
      (b.outcome.handing (callText b.callee b.args) (b.args.flatMap (·.locals))) := by
  have setup : Statement.DeclaredBefore [] (b.staging.flatMap (·.setup)) :=
    Statement.declaredBefore_flatMap (fun s _ => s.declaredBefore_setup) []
  have staged : (b.staging.flatMap (·.setup)).flatMap (·.declares) = b.stagedLocals := by
    simp [stagedLocals, List.flatMap_assoc]
  have warned (known : List String) :
      Statement.DeclaredBefore known [b.warnings function, { lines := [""] }] :=
    Statement.declaredBefore_of_uses (by simp [warnings])
  have teardown : Statement.DeclaredBefore (b.stagedLocals ++ b.outcome.locals)
      (b.staging.flatMap (·.teardown)) := by
    refine Statement.declaredBefore_of_uses fun x used => List.mem_append_left _ ?_
    rw [List.flatMap_assoc, List.mem_flatMap] at used
    obtain ⟨s, member, own⟩ := used
    exact List.mem_flatMap.mpr ⟨s, member, s.uses_teardown own⟩
  rw [parts, Statement.declaredBefore_append, Statement.declaredBefore_append,
    Statement.declaredBefore_append, staged, Outcome.declares_handing, List.nil_append]
  simp only [setup, warned, true_and]
  simp only [warnings, List.flatMap_cons, List.flatMap_nil, List.append_nil, teardown, and_true]

/-- A binding is closed if its variables are distinct and its arguments name only those that have
been set up, provided that it hands on the trace result that it sets up. -/
theorem closed_parts_iff
    (result : ∀ name, b.outcome = .nothing (some name) ↔ .traceResult name ∈ b.staging) :
    Statement.Closed (b.parts function) ↔
      b.locals.Nodup ∧ ∀ a ∈ b.args, ∀ x ∈ a.locals, x ∈ b.stagedLocals := by
  have traced : ∀ name, b.outcome = .nothing (some name) → s!"{name}_result" ∈ b.stagedLocals :=
    fun name handed => List.mem_flatMap.mpr ⟨_, (result name).mp handed, by simp [Staging.locals]⟩
  constructor
  · rintro ⟨earlier, once⟩
    rw [declares_parts] at once
    constructor
    · refine List.nodup_iff_count_eq_one.mpr fun x own =>
        once x ((mem_uses_parts b function).mpr ?_)
      rcases List.mem_append.mp own with before | after
      · obtain ⟨s, member, own⟩ := List.mem_flatMap.mp before
        by_cases trace : ∃ name, s = .traceResult name
        · obtain ⟨name, rfl⟩ := trace
          have same : x = s!"{name}_result" := by simpa [Staging.locals] using own
          exact .inr (.inr (.inl ⟨name, (result name).mpr member, same⟩))
        · exact .inl ⟨s, member, s.mem_uses_setup (fun name same => trace ⟨name, same⟩) own⟩
      · exact .inr (.inr (.inr (.inl after)))
    · intro a member x named
      obtain ⟨call, results, handed, -, uses⟩ :=
        b.outcome.handing_cons (callText b.callee b.args) (b.args.flatMap (·.locals))
      rw [declaredBefore_parts, handed] at earlier
      apply earlier.1 x
      rw [uses]
      exact List.mem_flatMap.mpr ⟨a, member, named⟩
  · rintro ⟨distinct, named⟩
    have arguments : ∀ x ∈ b.args.flatMap (·.locals), x ∈ b.stagedLocals := by
      intro x used
      obtain ⟨a, member, own⟩ := List.mem_flatMap.mp used
      exact named a member x own
    refine ⟨?_, fun x used => ?_⟩
    · rw [declaredBefore_parts]
      exact b.outcome.declaredBefore_handing _ _ arguments traced
    · rw [declares_parts]
      apply List.count_eq_one_of_mem distinct
      rcases (mem_uses_parts b function).mp used with
        ⟨s, member, own⟩ | ⟨a, member, own⟩ | ⟨name, handed, rfl⟩ | own | ⟨s, member, own⟩
      · exact List.mem_append_left _ (List.mem_flatMap.mpr ⟨s, member, Staging.uses_setup own⟩)
      · exact List.mem_append_left _ (named a member x own)
      · exact List.mem_append_left _ (traced name handed)
      · exact List.mem_append_right _ own
      · exact List.mem_append_left _ (List.mem_flatMap.mpr ⟨s, member, s.uses_teardown own⟩)

end CallBody

/-! ### Bindings of declarations -/

/-- The variables that an argument needs before the native call. -/
def ScriptArg.locals (a : ScriptArg) : List String :=
  if Declaration.isVector a.type then [s!"{a.name}_vec"]
  else
    match a.length with
    | some length => [s!"{a.name}_array", length, a.name]
    | none => []

theorem flatMap_ite_sublist {α β : Type} (p : α → Bool) (f : α → β) (l : List α) :
    (l.flatMap fun a => if p a then [f a] else []).Sublist (l.map f) := by
  induction l with
  | nil => exact .slnil
  | cons a r ih =>
    rw [List.flatMap_cons, List.map_cons]
    split
    · exact ih.cons_cons (f a)
    · exact ih.cons (f a)

namespace Declaration

def locals (d : Declaration) : List String :=
  d.traceResult?.toList.map (fun p => s!"{p.name}_result") ++ d.passedArgs.flatMap (·.locals) ++
    if !d.returnsVoid && isText d.returnType then ["temp_str"] else []

/-- The trace result is folded with a length, which scripts would have to pass with it. -/
def LosesLength (d : Declaration) (length : String) : Prop :=
  ∃ a ∈ d.scriptArgs, d.traceResult? = some a.param ∧ a.length = some length

theorem locals_staging? (d : Declaration) (index : Nat) (a : ScriptArg) :
    (d.staging? index a).toList.flatMap (·.locals) = a.locals := by
  unfold staging? ScriptArg.locals
  split
  · rfl
  · cases a.length with
    | none => rfl
    | some length => rfl

/-- A conversion that is no vector is no variable. -/
theorem isIdentifier_toNative {type : String} (other : canonical type ≠ "vec3_t")
    (value name : String) : isIdentifier (toNative type value name).value.expr = false := by
  obtain ⟨c, listed, inside⟩ := toNative_calls other value name
  have foreign : ∀ c ∈ ['(', '/'], Text.isIdentRest c = false := by decide
  by_contra valid
  have rest := isIdentRest_of_mem (eq_true_of_ne_false valid) inside
  rw [foreign c listed] at rest
  cases rest

theorem returnsVoid_of_traceResult? {d : Declaration} {p : Parameter}
    (out : d.traceResult? = some p) : d.returnsVoid = true := by
  unfold traceResult? at out
  split at out
  · assumption
  · cases out

theorem locals_outcome (d : Declaration) (call : String) : (d.outcome call).value.1.locals =
    if !d.returnsVoid && isText d.returnType then ["temp_str"] else [] := by
  unfold outcome
  cases d.returnsVoid with
  | true => rfl
  | false =>
    cases isText d.returnType with
    | true => rfl
    | false => rfl

/-- A binding without a result hands on the trace result if there is one. -/
theorem outcome_traceResult {d : Declaration} {call name : String} :
    (d.outcome call).value.1 = .nothing (some name) ↔
      ∃ p, d.traceResult? = some p ∧ p.name = name := by
  unfold outcome
  split
  · simp
  · rename_i returns
    have none : ∀ p, d.traceResult? ≠ some p := fun p out =>
      returns (returnsVoid_of_traceResult? out)
    split <;> simp [none]

namespace DistinctNames

variable {d : Declaration} (distinct : d.DistinctNames)
include distinct

theorem length_ne_name {a : ScriptArg} (member : a ∈ d.scriptArgs) {length : String}
    (folded : a.length = some length) : a.name ≠ length := by
  have covered : (d.scriptArgs.flatMap ScriptArg.coveredNames).Nodup := by
    rw [scriptArgs, foldArgs_coveredNames]
    exact distinct
  have own := (List.nodup_flatMap.mp covered).1 a member
  simpa [ScriptArg.coveredNames, folded] using own

theorem stagedLocals_callBody (table : Table) : (d.callBody table).value.1.stagedLocals =
    d.traceResult?.toList.map (fun p => s!"{p.name}_result") ++
      d.passedArgs.flatMap (·.locals) := by
  have staging : (d.callBody table).value.1.staging = d.callStaging := rfl
  rw [CallBody.stagedLocals, staging, callStaging, List.flatMap_append,
    flatMap_filterMap_of_same d.locals_staging?, distinct.callerArgs_eq]
  cases d.traceResult? <;> rfl

theorem locals_callBody (table : Table) : (d.callBody table).value.1.locals = d.locals := by
  rw [CallBody.locals, distinct.stagedLocals_callBody, locals]
  exact congrArg _ (d.locals_outcome _)

/-- No two arrays are copied to the same variable. -/
theorem buffers_nodup (table : Table) :
    ((d.callBody table).value.1.staging.filterMap (·.buffer?)).Nodup := by
  have staging : (d.callBody table).value.1.staging = d.callStaging := rfl
  have buffer (index : Nat) (a : ScriptArg) :
      (d.staging? index a).toList.flatMap (fun s => s.buffer?.toList) =
        if !isVector a.type && a.length.isSome then [a.name] else [] := by
    unfold staging?
    cases isVector a.type with
    | true => rfl
    | false =>
      cases a.length with
      | none => rfl
      | some length => rfl
  have names : (d.passedArgs.map (·.name)).Nodup :=
    (List.filter_sublist.map _).nodup distinct.scriptArgs_nodup
  rw [staging, List.filterMap_eq_flatMap_toList, callStaging, List.flatMap_append,
    flatMap_filterMap_of_same buffer, distinct.callerArgs_eq]
  have trace : (d.traceResult?.toList.map (Staging.traceResult ·.name)).flatMap
      (fun s => s.buffer?.toList) = [] := by
    cases d.traceResult? <;> rfl
  rw [trace, List.nil_append]
  exact (flatMap_ite_sublist _ _ d.passedArgs).nodup names

omit distinct in
theorem locals_of_folded {a : ScriptArg} (member : a ∈ d.scriptArgs) {length : String}
    (folded : a.length = some length) : a.locals = [s!"{a.name}_array", length, a.name] := by
  have pointer := (foldArgs_isPointer member (by simp [folded])).1
  simp [ScriptArg.locals, isVector_of_isPointerType pointer, folded]

/-- A length that an array takes is passed under its own name. -/
theorem callArg_length {p : Parameter} (declared : p ∈ d.fixed) (other : d.traceResult? ≠ some p)
    {a : ScriptArg} (member : a ∈ d.scriptArgs) (absorbed : a.length = some p.name) :
    (d.callArg p).value.1 = .staged p.name := by
  have passed := distinct.callArg_passedAs declared
  generalize (d.callArg p).value.1 = c at passed ⊢
  cases passed with
  | traceResult out => exact absurd out other
  | array => rfl
  | length => rfl
  | converted out place own single kept => exact absurd absorbed (kept a member)

/-- A length that the trace result takes is passed as if it had been set up. -/
theorem callArg_losesLength {length : String} (loses : d.LosesLength length) :
    ∃ p ∈ d.fixed, p.name = length ∧ (d.callArg p).value.1 = .staged length := by
  obtain ⟨a, member, out, folded⟩ := loses
  obtain ⟨p, declared, rfl⟩ : ∃ p ∈ d.fixed, p.name = length := by
    have covered : length ∈ d.scriptArgs.flatMap ScriptArg.coveredNames :=
      List.mem_flatMap.mpr ⟨a, member, by simp [ScriptArg.coveredNames, folded]⟩
    rw [scriptArgs, foldArgs_coveredNames] at covered
    exact List.mem_map.mp covered
  have other : d.traceResult? ≠ some p := by
    intro same
    rw [out, Option.some.injEq] at same
    exact distinct.length_ne_name member folded (congrArg Parameter.name same)
  exact ⟨p, declared, rfl, distinct.callArg_length declared other member folded⟩

/-- A parameter is passed by what has been set up for it, if no length is lost. -/
theorem callArg_staged {p : Parameter} (declared : p ∈ d.fixed) (named : isIdentifier p.name = true)
    (kept : ∀ length, d.LosesLength length → length ∈ d.locals) (table : Table) :
    ∀ x ∈ (d.callArg p).value.1.locals, x ∈ (d.callBody table).value.1.stagedLocals := by
  intro x used
  rw [distinct.stagedLocals_callBody]
  have passed := distinct.callArg_passedAs declared
  generalize (d.callArg p).value.1 = c at passed used
  cases passed with
  | traceResult out =>
    rw [CallArg.locals, List.mem_singleton] at used
    exact List.mem_append_left _ (by simp [out, used])
  | @array out a passed own folded =>
    obtain ⟨length, folded⟩ := Option.isSome_iff_exists.mp folded
    rw [CallArg.locals, List.mem_singleton] at used
    refine List.mem_append_right _ (List.mem_flatMap.mpr ⟨a, passed, ?_⟩)
    rw [locals_of_folded (List.mem_filter.mp passed).1 folded, used, ← own]
    simp [ScriptArg.name]
  | @length out a array absorbed =>
    rw [CallArg.locals, List.mem_singleton] at used
    rw [used]
    by_cases traced : d.traceResult? = some a.param
    · have inside := kept p.name ⟨a, array, traced, absorbed⟩
      rwa [locals, returnsVoid_of_traceResult? traced, Bool.not_true, Bool.false_and,
        if_neg Bool.false_ne_true, List.append_nil] at inside
    · have passed : a ∈ d.passedArgs := List.mem_filter.mpr ⟨array, decide_eq_true traced⟩
      refine List.mem_append_right _ (List.mem_flatMap.mpr ⟨a, passed, ?_⟩)
      rw [locals_of_folded array absorbed]
      simp
  | @converted out index a place own single kept =>
    -- of the converted arguments, only a vector names a variable
    by_cases vector : isVector p.type = true
    · have expr : (toNative p.type s!"info[{index}]" p.name).value.expr = s!"{p.name}_vec" :=
        toNative_vector (of_decide_eq_true vector) named
      have local_ : x = s!"{p.name}_vec" := by
        rw [CallArg.locals, expr] at used
        split at used
        · exact List.mem_singleton.mp used
        · cases used
      refine List.mem_append_right _ (List.mem_flatMap.mpr ⟨a, List.mem_of_getElem? place, ?_⟩)
      have typed : isVector a.type = true := by rw [ScriptArg.type, own, vector]
      rw [ScriptArg.locals, if_pos typed, local_, ScriptArg.name, own]
      exact List.mem_singleton_self _
    · rw [CallArg.locals, isIdentifier_toNative (by simpa [isVector] using vector)] at used
      cases used

/-- The native call names what has been set up, apart from a length that the trace result takes. -/
theorem args_staged_iff (names : ∀ p ∈ d.fixed, isIdentifier p.name = true) (table : Table) :
    (∀ c ∈ (d.callBody table).value.1.args, ∀ x ∈ c.locals,
        x ∈ (d.callBody table).value.1.stagedLocals) ↔
      ∀ length, d.LosesLength length → length ∈ d.locals := by
  rw [callBody_args]
  constructor
  · intro staged length loses
    obtain ⟨p, declared, -, passed⟩ := distinct.callArg_losesLength loses
    have inside := staged _ (List.mem_map_of_mem declared) length (by
      rw [passed, CallArg.locals, List.mem_singleton])
    rw [distinct.stagedLocals_callBody] at inside
    exact List.mem_append_left _ inside
  · intro kept c member
    obtain ⟨p, declared, rfl⟩ := List.mem_map.mp member
    exact distinct.callArg_staged declared (names p declared) kept table

/-- The generated part of a binding is closed if its variables are distinct and no length is
lost. -/
theorem closed_callBody_iff (names : ∀ p ∈ d.fixed, isIdentifier p.name = true) (table : Table)
    (function : String) :
    Statement.Closed ((d.callBody table).value.1.parts function) ↔
      d.locals.Nodup ∧ ∀ length, d.LosesLength length → length ∈ d.locals := by
  have result (name : String) : (d.callBody table).value.1.outcome = .nothing (some name) ↔
      .traceResult name ∈ (d.callBody table).value.1.staging := by
    have staging : (d.callBody table).value.1.staging = d.callStaging := rfl
    have vectors (index : Nat) (a : ScriptArg) : d.staging? index a ≠ some (.traceResult name) := by
      unfold staging?
      split
      · simp
      · cases a.length <;> simp
    rw [staging, distinct.mem_callStaging]
    refine outcome_traceResult.trans ⟨fun ⟨p, out, own⟩ => .inl ⟨p, out, by rw [own]⟩, ?_⟩
    rintro (⟨p, out, same⟩ | ⟨index, a, -, staged⟩)
    · exact ⟨p, out, Staging.traceResult.inj same⟩
    · exact absurd staged (vectors index a)
  rw [CallBody.closed_parts_iff _ _ result, distinct.locals_callBody,
    distinct.args_staged_iff names]

end DistinctNames

def bindingParts (d : Declaration) (table : Table) : List Statement :=
  (d.callBody table).value.1.parts d.name

/-- Whatever function a line declares, the generated binding allocates and frees its arrays in step.
It is closed exactly if the variables that it derives from its parameters are distinct and the trace
result takes no length with it, unless another variable happens to have the name of that length. -/
theorem binding_closed_iff (g : GlueSettings) (table : Table) {text : String} {line : Nat}
    {d : Declaration} (read : (ofLine text line).value = d) (readable : d.isUnparsable = false)
    (distinct : d.DistinctNames) (generic : (g.custom table d.name).bind (·.apiBody) = none) :
    (∃ flags, (d.binding g table).value.definition =
        some (d.bindingDef g table flags ((d.bindingParts table).flatMap (·.lines)))) ∧
      Statement.ReleasesOnce (d.bindingParts table) ∧
      (Statement.Closed (d.bindingParts table) ↔
        d.locals.Nodup ∧ ∀ length, d.LosesLength length → length ∈ d.locals) := by
  have names : ∀ p ∈ d.fixed, isIdentifier p.name = true := by
    rw [← read]
    exact fun p member => isIdentifier_ofLine member
  refine ⟨⟨(d.callBody table).value.2, ?_⟩, ?_, ?_⟩
  · rw [bindingParts, CallBody.lines_parts]
    exact binding_definition readable generic
  · exact CallBody.releasesOnce_parts _ _ (distinct.buffers_nodup table)
  · exact distinct.closed_callBody_iff names table d.name

/-- A trace along points that are handed over with their number. -/
def samplePointTrace : Declaration where
  name := "pfnTracePoints"
  returnType := "void"
  args := [.fixed ⟨"points", "const float *", none⟩, .fixed ⟨"pointsLength", "int", none⟩,
    .fixed ⟨"start", "vec3_t", none⟩, .fixed ⟨"ptr", "TraceResult *", none⟩]
  text := "void (*pfnTracePoints)(const float *points, int pointsLength, vec3_t start, " ++
    "TraceResult *ptr);"
  line := 1

/-- An array with its length, a vector and a trace result are all set up and named. -/
theorem binding_closed_pointTrace :
    (ofLine samplePointTrace.text 1).value = samplePointTrace ∧
      samplePointTrace.isUnparsable = false ∧ samplePointTrace.DistinctNames ∧
      Statement.ReleasesOnce (samplePointTrace.bindingParts .engine) ∧
      Statement.Closed (samplePointTrace.bindingParts .engine) := by
  have read : (ofLine samplePointTrace.text 1).value = samplePointTrace := by decide +kernel
  have distinct : samplePointTrace.DistinctNames := by decide
  obtain ⟨-, releases, closed⟩ :=
    binding_closed_iff { custom := CustomProvider.none } .engine read rfl distinct rfl
  have free : ∀ a ∈ samplePointTrace.scriptArgs,
      samplePointTrace.traceResult? = some a.param → a.length = none := by decide +kernel
  refine ⟨read, rfl, distinct, releases, ?_⟩
  refine closed.mpr ⟨by decide +kernel, ?_⟩
  rintro length ⟨a, member, out, folded⟩
  rw [free a member out] at folded
  cases folded

/-- A trace that has its result handed over with a length. -/
def sampleTraceLength : Declaration where
  name := "pfnTraceIt"
  returnType := "void"
  args := [.fixed ⟨"ptr", "TraceResult *", none⟩, .fixed ⟨"traceLength", "int", none⟩]
  text := "void (*pfnTraceIt)(TraceResult *ptr, int traceLength);"
  line := 1

/-- The native call names the length, which nothing declares. -/
theorem not_closed_traceLength :
    (ofLine sampleTraceLength.text 1).value = sampleTraceLength ∧
      sampleTraceLength.isUnparsable = false ∧ sampleTraceLength.DistinctNames ∧
      (sampleTraceLength.bindingParts .engine).flatMap (·.lines) =
        ["TraceResult ptr_result = {};", "",
          "(*g_engfuncs.pfnTraceIt)(&ptr_result, traceLength);",
          "info.GetReturnValue().Set(structures::wrapTraceResult(isolate, &ptr_result));"] ∧
      ¬ Statement.Closed (sampleTraceLength.bindingParts .engine) := by
  have distinct : sampleTraceLength.DistinctNames := by decide
  have names : ∀ p ∈ sampleTraceLength.fixed, isIdentifier p.name = true := by decide
  refine ⟨by decide +kernel, by decide, distinct, by decide +kernel, fun closed => ?_⟩
  have kept := ((distinct.closed_callBody_iff names .engine _).mp closed).2
  have undeclared : "traceLength" ∉ sampleTraceLength.locals := by decide +kernel
  refine undeclared (kept "traceLength" ?_)
  exact ⟨.array ⟨"ptr", "TraceResult *", none⟩ "traceLength", by decide +kernel, by decide +kernel,
    rfl⟩

end Declaration

end ScriptGlue
