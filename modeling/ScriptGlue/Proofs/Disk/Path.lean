import Mathlib.Data.List.Nodup
import Mathlib.Data.List.TakeWhile
import ScriptGlue.Disk.Path

/-!
# Joined paths

A name that is joined to a directory ends the path, so different names end up at different paths,
whatever the directories are.
-/
namespace ScriptGlue.Path

/-- What follows the last slash. -/
def lastName (path : String) : String :=
  String.ofList (path.toList.reverse.takeWhile (· ≠ '/')).reverse

/-- What stands before a name in a joined path is nothing or ends in a slash. -/
theorem exists_lead_join (base name : String) :
    ∃ lead, (join base name).toList = lead ++ name.toList ∧
      (lead = [] ∨ lead.getLast? = some '/') := by
  unfold join
  split
  · exact ⟨[], rfl, .inl rfl⟩
  · split
    · rename_i slash
      exact ⟨base.toList, String.toList_append, .inr slash⟩
    · exact ⟨base.toList ++ ['/'], by simp, .inr (by simp)⟩

theorem lastName_join {name : String} (plain : '/' ∉ name.toList) (base : String) :
    lastName (join base name) = name := by
  obtain ⟨lead, whole, ends⟩ := exists_lead_join base name
  have inside : ∀ c ∈ name.toList.reverse, (decide (c ≠ '/')) = true := by
    intro c member
    rw [List.mem_reverse] at member
    simpa using fun same : c = '/' => plain (same ▸ member)
  have stops : lead.reverse.takeWhile (· ≠ '/') = [] := by
    rcases ends with rfl | last
    · rfl
    · rw [List.getLast?_eq_head?_reverse] at last
      cases back : lead.reverse with
      | nil => rfl
      | cons c r =>
        rw [back] at last
        cases last
        rfl
  rw [lastName, whole, List.reverse_append, List.takeWhile_append_of_pos inside, stops,
    List.append_nil, List.reverse_reverse, String.ofList_toList]

end ScriptGlue.Path
