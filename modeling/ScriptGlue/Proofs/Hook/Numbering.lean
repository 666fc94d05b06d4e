import Mathlib.Data.List.Nodup
import Mathlib.Data.List.Perm.Subperm
import ScriptGlue.Hook.Consistency
import ScriptGlue.Hook.DetourFile
import ScriptGlue.Hook.Reading

/-!
# Numbers of hooks and places of detours

The table of detours is written in the order of the enumeration and used by number. Consistency of
the catalogue compares counts, rows and keys, but no order: the numbers may still be permuted, and
hooks whose names call for one key may share a number. The table is positional if the numbers go up
and, as long as no two rows have the same key, only then.
-/
namespace ScriptGlue.Hook

/-- An increasing list of numbers below its length counts up from zero. -/
theorem eq_range_of_increasing {l : List Nat} (increasing : l.Pairwise (· < ·))
    (bounded : ∀ i ∈ l, i < l.length) : l = List.range l.length := by
  have distinct : l.Nodup := increasing.imp Nat.ne_of_lt
  have inside : l ⊆ List.range l.length := fun i member => List.mem_range.mpr (bounded i member)
  have same : l.Perm (List.range l.length) :=
    (List.subperm_of_subset distinct inside).perm_of_length_le (by simp)
  exact same.eq_of_pairwise (fun a b _ _ below above => absurd below (Nat.lt_asymm above))
    increasing List.pairwise_lt_range

namespace Catalogue

variable {c : Catalogue}

/-- The hooks have the numbers below their count, each of them once. -/
def Dense (c : Catalogue) : Prop :=
  (c.entries.map (·.id)).Perm (List.range c.entries.length)

/-- At the number of each hook, the table has the detour of the row with that number. -/
def Positional (c : Catalogue) : Prop :=
  ∀ e ∈ c.entries, ∃ s, c.signatures[e.id]? = some s ∧
    (c.detourTable.items[e.id]?).map (·.text) =
      some s!"reinterpret_cast<void*>(Hook_{s.key})"

/-- The numbers of the hooks go up in the order of the enumeration. -/
def Increasing (c : Catalogue) : Prop := (c.entries.map (·.id)).Pairwise (· < ·)

instance (c : Catalogue) : Decidable c.Increasing :=
  inferInstanceAs (Decidable ((c.entries.map (·.id)).Pairwise (· < ·)))

/-- In a catalogue that has been read, each hook has the row with its number. -/
def Joined (c : Catalogue) : Prop := ∀ e ∈ c.entries, e.signature = c.signatures[e.id]?

theorem joined_join (hooks : List Enumerator) (rows : List Signature) (results : List Enumerator) :
    (join hooks rows results).Joined := by
  intro e member
  obtain ⟨h, -, rfl⟩ := List.mem_map.mp member
  rfl

/-- What is read is joined from the three parts of the sources. -/
theorem exists_join {enumSource arraySource : String}
    (read : Catalogue.read enumSource arraySource = .ok c) : ∃ hooks results rows,
      readEnum enumSource hookEnum hookShared = .ok hooks ∧
        readSignatures arraySource signatureArray = .ok rows ∧
        join (hooks.filter (·.name ≠ endMarker)) rows results = c := by
  rw [Catalogue.read] at read
  cases hooks : readEnum enumSource hookEnum hookShared with
  | error fault =>
    rw [hooks] at read
    cases read
  | ok hooks' =>
    cases results : readResults enumSource with
    | error fault =>
      rw [hooks, results] at read
      cases read
    | ok results' =>
      cases rows : readSignatures arraySource signatureArray with
      | error fault =>
        rw [hooks, results, rows] at read
        cases read
      | ok rows' =>
        rw [hooks, results, rows] at read
        cases read
        exact ⟨hooks', results', rows', rfl, rfl, rfl⟩

theorem joined_of_read {enumSource arraySource : String}
    (read : Catalogue.read enumSource arraySource = .ok c) : c.Joined := by
  obtain ⟨hooks, results, rows, -, -, rfl⟩ := exists_join read
  exact joined_join _ _ _

/-- Without issues there are as many hooks as rows, and each hook has a row. -/
theorem consistent_of_issues (clean : c.issues = []) :
    c.entries.length = c.signatures.length ∧ ∀ e ∈ c.entries, ∃ s, e.signature = some s := by
  simp only [issues, List.append_eq_nil_iff, List.filterMap_eq_nil_iff] at clean
  obtain ⟨⟨counts, hooks⟩, -⟩ := clean
  constructor
  · by_contra differ
    rw [if_neg differ] at counts
    cases counts
  · intro e member
    have fine := hooks e member
    cases row : e.signature with
    | none =>
      rw [Entry.issue?, row] at fine
      cases fine
    | some s => exact ⟨s, rfl⟩

/-- Without issues all numbers are those of rows. -/
theorem id_lt_of_issues (joined : c.Joined) (clean : c.issues = []) {e : Entry}
    (member : e ∈ c.entries) : e.id < c.entries.length := by
  obtain ⟨counts, rows⟩ := consistent_of_issues clean
  obtain ⟨s, row⟩ := rows e member
  rw [joined e member] at row
  rw [counts]
  exact (List.getElem?_eq_some_iff.mp row).1

theorem text_detourItem {e : Entry} {s : Signature} (row : e.signature = some s) :
    e.detourItem.text = s!"reinterpret_cast<void*>(Hook_{s.key})" := by
  rw [Entry.detourItem, row]
  rfl

theorem text_detourTable (c : Catalogue) (i : Nat) :
    (c.detourTable.items[i]?).map (·.text) = (c.entries[i]?).map (·.detourItem.text) := by
  rw [detourTable, List.getElem?_map, Option.map_map]
  rfl

/-- Detours of rows with different keys are told apart. -/
theorem detourText_inj {a b : String}
    (same : s!"reinterpret_cast<void*>(Hook_{a})" = s!"reinterpret_cast<void*>(Hook_{b})") :
    a = b := by
  have spelled (key : String) : s!"reinterpret_cast<void*>(Hook_{key})" =
      "reinterpret_cast<void*>(Hook_" ++ key ++ ")" := rfl
  rw [spelled, spelled] at same
  have chars := congrArg String.toList same
  simp only [String.toList_append, List.append_assoc] at chars
  exact String.toList_inj.mp (List.append_cancel_right (List.append_cancel_left chars))

/-- Numbers that go up leave none out. -/
theorem ids_eq_range (joined : c.Joined) (clean : c.issues = []) (increasing : c.Increasing) :
    c.entries.map (·.id) = List.range c.entries.length := by
  have counted := eq_range_of_increasing increasing (by
    intro i member
    obtain ⟨e, inside, rfl⟩ := List.mem_map.mp member
    rw [List.length_map]
    exact id_lt_of_issues joined clean inside)
  rwa [List.length_map] at counted

theorem positional_of_ids (joined : c.Joined) (clean : c.issues = [])
    (ids : c.entries.map (·.id) = List.range c.entries.length) : c.Positional := by
  intro e member
  obtain ⟨s, row⟩ := (consistent_of_issues clean).2 e member
  obtain ⟨i, bound, rfl⟩ := List.mem_iff_getElem.mp member
  have own : c.entries[i].id = i := by
    have place : (c.entries.map (·.id))[i]? = some i := by
      rw [ids, List.getElem?_range bound]
    rw [List.getElem?_map, List.getElem?_eq_getElem bound] at place
    exact Option.some.inj place
  refine ⟨s, by rw [← joined _ member, row], ?_⟩
  rw [text_detourTable, own, List.getElem?_eq_getElem bound, Option.map_some,
    text_detourItem row]

/-- Where all keys differ, they tell rows apart. -/
theorem row_of_key (keys : (c.signatures.map (·.key)).Nodup) {i j : Nat} {s t : Signature}
    (first : c.signatures[i]? = some s) (second : c.signatures[j]? = some t)
    (same : s.key = t.key) : i = j := by
  have at_ {k : Nat} {r : Signature} (row : c.signatures[k]? = some r) :
      (c.signatures.map (·.key))[k]? = some r.key := by
    rw [List.getElem?_map, row]
    rfl
  obtain ⟨bound, here⟩ := List.getElem?_eq_some_iff.mp (at_ first)
  obtain ⟨bound', there⟩ := List.getElem?_eq_some_iff.mp (at_ second)
  exact keys.getElem_inj_iff.mp (here.trans (same.trans there.symm))

/-- Where the table is positional, the hook at a number that is in use has that number. -/
theorem hook_at_id (joined : c.Joined) (clean : c.issues = [])
    (keys : (c.signatures.map (·.key)).Nodup) (positional : c.Positional) {e : Entry}
    (member : e ∈ c.entries) : ∃ f, c.entries[e.id]? = some f ∧ f.id = e.id := by
  obtain ⟨s, row, place⟩ := positional e member
  have bound := id_lt_of_issues joined clean member
  have inside : c.entries[e.id] ∈ c.entries := List.getElem_mem bound
  obtain ⟨t, own⟩ := (consistent_of_issues clean).2 _ inside
  rw [text_detourTable, List.getElem?_eq_getElem bound, Option.map_some, Option.some.injEq,
    text_detourItem own] at place
  rw [joined _ inside] at own
  exact ⟨_, List.getElem?_eq_getElem bound, row_of_key keys own row (detourText_inj place)⟩

theorem increasing_of_positional (joined : c.Joined) (clean : c.issues = [])
    (keys : (c.signatures.map (·.key)).Nodup) (dense : c.Dense) (positional : c.Positional) :
    c.Increasing := by
  have ids : c.entries.map (·.id) = List.range c.entries.length := by
    refine List.ext_getElem? fun i => ?_
    by_cases bound : i < c.entries.length
    · obtain ⟨e, member, rfl⟩ := List.mem_map.mp (dense.mem_iff.mpr (List.mem_range.mpr bound))
      obtain ⟨f, place, own⟩ := hook_at_id joined clean keys positional member
      rw [List.getElem?_map, place, List.getElem?_range bound, Option.map_some, own]
    · rw [List.getElem?_eq_none (by simpa using bound),
        List.getElem?_eq_none (by simpa using bound)]
  rw [Increasing, ids]
  exact List.pairwise_lt_range

/-- Consistency alone does not make the table positional. It does as soon as the numbers go up, and
then no number is left out; where rows have different keys, nothing else does. -/
theorem detourTable_positional {enumSource arraySource : String}
    (read : Catalogue.read enumSource arraySource = .ok c) (clean : c.issues = []) :
    (c.Increasing → c.Dense ∧ c.Positional) ∧
      ((c.signatures.map (·.key)).Nodup → c.Dense → c.Positional → c.Increasing) := by
  have joined := joined_of_read read
  constructor
  · intro increasing
    have ids := ids_eq_range joined clean increasing
    exact ⟨by rw [Dense, ids], positional_of_ids joined clean ids⟩
  · exact increasing_of_positional joined clean

/-! ### Samples -/

/-- The rows of two hooks. -/
def sampleArray : String :=
  "HamFunctionInfo g_hamFunctions[] = \x7b\n" ++
    "  \x7b\"spawn\", HAM_RET_VOID, 0, \x7b\x7d\x7d,\n" ++
    "  \x7b\"cstrike_restart\", HAM_RET_INT, 1, \x7bHAM_PARAM_INT\x7d\x7d,\n\x7d;"

/-- Two hooks in the order of their rows. -/
def sampleEnum : String := "enum HamType \x7b Ham_Spawn, Ham_CS_Restart, Ham_EndMarker \x7d;"

/-- The same numbers in another order. -/
def swappedEnum : String := "enum HamType \x7b Ham_CS_Restart = 1, Ham_Spawn = 0 \x7d;"

def sampleRows : List Signature :=
  [⟨"spawn", .void, 0, [], 2⟩, ⟨"cstrike_restart", .int, 1, [.int], 3⟩]

def sampleCatalogue : Catalogue :=
  join [⟨"Spawn", 0, 1⟩, ⟨"CS_Restart", 1, 1⟩] sampleRows defaultResults

def swappedCatalogue : Catalogue :=
  join [⟨"CS_Restart", 1, 1⟩, ⟨"Spawn", 0, 1⟩] sampleRows defaultResults

theorem detourTable_positional_sample :
    Catalogue.read sampleEnum sampleArray = .ok sampleCatalogue ∧ sampleCatalogue.issues = [] ∧
      sampleCatalogue.Increasing ∧ sampleCatalogue.Dense ∧ sampleCatalogue.Positional := by
  have read : Catalogue.read sampleEnum sampleArray = .ok sampleCatalogue := by decide +kernel
  have clean : sampleCatalogue.issues = [] := by decide +kernel
  have increasing : sampleCatalogue.Increasing := by decide
  exact ⟨read, clean, increasing, (detourTable_positional read clean).1 increasing⟩

/-- Two hooks whose numbers are swapped are consistent with their rows, but the place of each has
the detour of the other. -/
theorem not_positional_swapped :
    Catalogue.read swappedEnum sampleArray = .ok swappedCatalogue ∧ swappedCatalogue.issues = [] ∧
      swappedCatalogue.detourTable.items.map (·.text) =
        ["reinterpret_cast<void*>(Hook_cstrike_restart)", "reinterpret_cast<void*>(Hook_spawn)"] ∧
      ¬ swappedCatalogue.Positional := by
  have table : swappedCatalogue.detourTable.items.map (·.text) =
      ["reinterpret_cast<void*>(Hook_cstrike_restart)",
        "reinterpret_cast<void*>(Hook_spawn)"] := by
    decide +kernel
  refine ⟨by decide +kernel, by decide +kernel, table, ?_⟩
  intro positional
  obtain ⟨s, row, place⟩ := positional ⟨"CS_Restart", 1, sampleRows[1]?⟩ (by decide)
  have key : s = ⟨"cstrike_restart", .int, 1, [.int], 3⟩ := (Option.some.inj row).symm
  rw [← List.getElem?_map, table, key] at place
  exact absurd place (by decide)

end Catalogue

end ScriptGlue.Hook
