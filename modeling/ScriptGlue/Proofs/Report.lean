import ScriptGlue.Report

/-!
# Pushed findings

A report takes findings one at a time. It keeps them all, in order, and is a success for as long as
none of them is an error.
-/
namespace ScriptGlue.Report

variable (r : Report) (fs : List Finding)

theorem pushAll_cons (f : Finding) : r.pushAll (f :: fs) = (r.push f).pushAll fs := rfl

theorem findings_pushAll : (r.pushAll fs).findings = r.findings ++ fs := by
  induction fs generalizing r with
  | nil => exact (List.append_nil _).symm
  | cons f rest ih => rw [pushAll_cons, ih, push, List.append_assoc, List.singleton_append]

theorem tables_pushAll : (r.pushAll fs).tables = r.tables := by
  induction fs generalizing r with
  | nil => rfl
  | cons f rest ih => rw [pushAll_cons, ih, push]

theorem hasErrors_iff : r.hasErrors = true ↔ ∃ f ∈ r.findings, f.severity = .error := by
  rw [hasErrors, decide_eq_true_iff, count, List.countP_pos_iff]
  simp

theorem unparsable_eq_zero_iff : r.unparsable = 0 ↔ ∀ t ∈ r.tables, t.unparsable = 0 := by
  rw [unparsable]
  induction r.tables with
  | nil => simp
  | cons t rest ih => rw [List.foldr_cons, Nat.add_eq_zero_iff, ih, List.forall_mem_cons]

/-- A report says whether it is a success, and its findings do too. -/
def IsSettled : Prop := r.success = !r.hasErrors

theorem isSettled_empty : empty.IsSettled := rfl

theorem hasErrors_push (f : Finding) :
    (r.push f).hasErrors = (r.hasErrors || f.severity == .error) := by
  have counted : (r.push f).count .error =
      r.count .error + if f.severity = .error then 1 else 0 := by
    simp [count, push]
  rw [hasErrors, hasErrors, counted]
  by_cases error : f.severity = .error <;> simp [error]

variable {r}

theorem IsSettled.push (settled : r.IsSettled) (f : Finding) : (r.push f).IsSettled := by
  have success : (r.push f).success = (r.success && f.severity != .error) := rfl
  rw [IsSettled, hasErrors_push, success, settled, bne, Bool.not_or]

theorem IsSettled.pushAll (settled : r.IsSettled) : (r.pushAll fs).IsSettled := by
  induction fs generalizing r with
  | nil => exact settled
  | cons f rest ih => exact ih (settled.push f)

end ScriptGlue.Report
