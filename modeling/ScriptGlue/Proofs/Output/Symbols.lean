import ScriptGlue.Proofs.Output.ScriptNames

/-!
# Generated names

Handlers and bindings are named for the table, for the phase and for the function, and each of these
can be told from the name; no handler has the name of a binding. Events are told apart the same way,
but as they are in camel case, what camel case loses of a function is lost. Names in camel case have
no underscores and stay as they are.
-/
namespace ScriptGlue

open Text

namespace Declaration

theorem toList_eventSymbol (d : Declaration) (table : Table) (phase : Phase) :
    (d.eventSymbol table phase).toList =
      (table.eventStem phase).toList ++ '_' :: d.name.toList := by
  simp [eventSymbol, toString]

theorem toList_apiSymbol (d : Declaration) (table : Table) :
    (d.apiSymbol table).toList = 's' :: 'f' :: '_' :: (table.key.toList ++ '_' :: d.name.toList) := by
  simp [apiSymbol, toString]

/-- A handler is named for its table, its phase and its function. -/
theorem eventSymbol_eq_iff {d e : Declaration} {table table' : Table} {phase phase' : Phase} :
    d.eventSymbol table phase = e.eventSymbol table' phase' ↔
      table = table' ∧ phase = phase' ∧ d.name = e.name := by
  constructor
  · intro same
    rw [← String.toList_inj, toList_eventSymbol, toList_eventSymbol] at same
    obtain ⟨tables, phases, rest⟩ := Table.eventStem_append_inj same
    exact ⟨tables, phases, String.toList_inj.mp (List.cons.inj rest).2⟩
  · rintro ⟨rfl, rfl, same⟩
    rw [eventSymbol, eventSymbol, same]

/-- A binding is named for its table and its function. -/
theorem apiSymbol_eq_iff {d e : Declaration} {table table' : Table} :
    d.apiSymbol table = e.apiSymbol table' ↔ table = table' ∧ d.name = e.name := by
  constructor
  · intro same
    rw [← String.toList_inj, toList_apiSymbol, toList_apiSymbol] at same
    have keys : table.key.toList ++ '_' :: d.name.toList =
        table'.key.toList ++ '_' :: e.name.toList := by
      simpa using same
    cases table <;> cases table' <;> simp_all [Table.key, String.toList_inj]
  · rintro ⟨rfl, same⟩
    rw [apiSymbol, apiSymbol, same]

/-- The names of bindings start with `sf`, and those of handlers do not. -/
theorem eventSymbol_ne_apiSymbol (d e : Declaration) (table table' : Table) (phase : Phase) :
    d.eventSymbol table phase ≠ e.apiSymbol table' := by
  intro same
  rw [← String.toList_inj, toList_eventSymbol, toList_apiSymbol] at same
  cases table <;> cases phase <;> simp [Table.eventStem] at same

/-- An event is named for its table, its phase and what camel case keeps of its function. -/
theorem eventName_eq_iff {d e : Declaration} {table table' : Table} {phase phase' : Phase} :
    d.eventName table phase = e.eventName table' phase' ↔
      table = table' ∧ phase = phase' ∧ joined id d.nameWords = joined id e.nameWords := by
  constructor
  · exact eventName_inj
  · rintro ⟨rfl, rfl, same⟩
    rw [eventName_eq, eventName_eq, same]

end Declaration

/-- No two generated names collide across tables and phases: a handler tells its table, phase and
function, a binding its table and function, an event its table and phase. Camel case has no
underscores, and applying it again changes nothing where it has lowered an ASCII character. -/
theorem symbols_apart :
    (∀ (d e : Declaration) (table table' : Table) (phase phase' : Phase),
      (d.eventSymbol table phase = e.eventSymbol table' phase' ↔
        table = table' ∧ phase = phase' ∧ d.name = e.name) ∧
      (d.apiSymbol table = e.apiSymbol table' ↔ table = table' ∧ d.name = e.name) ∧
      d.eventSymbol table phase ≠ e.apiSymbol table' ∧
      (d.eventName table phase = e.eventName table' phase' ↔
        table = table' ∧ phase = phase' ∧ joined id d.nameWords = joined id e.nameWords)) ∧
    ∀ name : String, '_' ∉ (camelCase name).toList ∧
      ((∀ c ∈ name.toList.head?, c.toNat < 128 ∧ c ≠ '_') →
        camelCase (camelCase name) = camelCase name) :=
  ⟨fun d e table table' phase _ => ⟨Declaration.eventSymbol_eq_iff, Declaration.apiSymbol_eq_iff,
    d.eventSymbol_ne_apiSymbol e table table' phase, Declaration.eventName_eq_iff⟩,
    fun name => ⟨underscore_not_mem_camelCase name, camelCase_camelCase⟩⟩

theorem symbols_apart_register :
    (∀ c ∈ "Cvar_RegisterVariable".toList.head?, c.toNat < 128 ∧ c ≠ '_') ∧
    camelCase "Cvar_RegisterVariable" = "cvarRegisterVariable" ∧
    camelCase "cvarRegisterVariable" = "cvarRegisterVariable" := by
  have first : ∀ c ∈ "Cvar_RegisterVariable".toList.head?, c.toNat < 128 ∧ c ≠ '_' := by decide
  have camel : camelCase "Cvar_RegisterVariable" = "cvarRegisterVariable" := by decide
  have again := (symbols_apart.2 "Cvar_RegisterVariable").2 first
  rw [camel] at again
  exact ⟨first, camel, again⟩

end ScriptGlue
