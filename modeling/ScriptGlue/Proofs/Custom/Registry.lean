import ScriptGlue.Custom.Builtin

/-!
# Registered fragments

Fragments are found under the function that they were registered for, and registering leaves those
of all other functions alone. Of the functions with built-in fragments, three have parameters that
are typed by hand although their events are raised without a fragment.
-/
namespace ScriptGlue.CustomRegistry

/-! ### Registration -/

/-- Entries under one key do not matter to another. -/
theorem lookup_filter_ne {key other : Table × String} (apart : other ≠ key)
    (entries : List ((Table × String) × Custom)) :
    (entries.filter (·.1 ≠ key)).lookup other = entries.lookup other := by
  induction entries with
  | nil => rfl
  | cons entry r ih =>
    obtain ⟨k, value⟩ := entry
    by_cases here : k = key
    · have passed : (other == k) = false := beq_false_of_ne fun same => apart (same.trans here)
      rw [List.filter_cons_of_neg (by simp [here]), ih, List.lookup_cons, passed]
    · rw [List.filter_cons_of_pos (by simp [here]), List.lookup_cons, List.lookup_cons, ih]

/-- Registering fragments for a function changes what is found for this function and no other. -/
theorem find?_insert (r : CustomRegistry) (table : Table) (name : String) (c : Custom)
    (table' : Table) (name' : String) :
    (r.insert table name c).find? table' name' =
      if (table', name') = (table, name) then some c else r.find? table' name' := by
  rw [find?, insert, List.lookup_cons]
  split
  · rename_i here
    rw [if_pos (eq_of_beq here)]
  · rename_i apart
    have other : (table', name') ≠ (table, name) := ne_of_beq_false apart
    rw [if_neg other, lookup_filter_ne other]
    rfl

/-! ### Built-in fragments -/

/-- Functions that return a pair of vectors in the place of their last two parameters. -/
def vectorPairs : List (Table × String) :=
  [(.engine, "pfnGetAttachment"), (.engine, "pfnGetBonePosition")]

/-- Functions whose parameters are typed by hand while their events are raised as they are. -/
def typedByHand : List (Table × String) := (.engine, "pfnMessageBegin") :: vectorPairs

/-- The types of parameters that are written by hand for a function, if any are. -/
def handTypes? (provider : CustomProvider) (table : Table) (name : String) :
    Option (List String) :=
  ((provider table name).bind (·.params)).map fun params => params.map (·.type)

def builtinKeys : List (Table × String) := builtin.entries.map (·.1)

theorem find?_builtin_eq_none {table : Table} {name : String}
    (other : (table, name) ∉ builtinKeys) : builtin.find? table name = none := by
  apply List.lookup_eq_none_iff.mpr
  intro pair member
  rw [bne_iff_ne]
  intro same
  exact other (same ▸ List.mem_map_of_mem member)

/-- Where no event is written by hand, the types that are written by hand are these. -/
theorem handTypes?_builtin {table : Table} {name : String}
    (generic : (builtin.find? table name).bind (·.event) = none) :
    handTypes? builtin.find? table name =
      if (table, name) = (.engine, "pfnMessageBegin") then
        some ["number", "number", "number[]", "Entity | undefined"]
      else if (table, name) ∈ vectorPairs then some ["Entity", "number"] else none := by
  by_cases known : (table, name) ∈ builtinKeys
  · have keys : builtinKeys = [(.dll, "pfnClientCommand"), (.engine, "pfnGetBonePosition"),
        (.engine, "pfnGetAttachment"), (.engine, "pfnMessageBegin"),
        (.engine, "pfnCvar_DirectSet"), (.engine, "pfnCvar_RegisterVariable"),
        (.engine, "pfnCVarRegister"), (.engine, "pfnEngineFprintf"),
        (.engine, "pfnAlertMessage"), (.engine, "pfnClientCommand")] := by decide
    simp only [keys, List.mem_cons, List.not_mem_nil, or_false, Prod.mk.injEq] at known
    rcases known with ⟨rfl, rfl⟩ | ⟨rfl, rfl⟩ | ⟨rfl, rfl⟩ | ⟨rfl, rfl⟩ | ⟨rfl, rfl⟩ | ⟨rfl, rfl⟩ |
      ⟨rfl, rfl⟩ | ⟨rfl, rfl⟩ | ⟨rfl, rfl⟩ | ⟨rfl, rfl⟩
    -- the first and the last have events of their own
    · cases generic
    · rfl
    · rfl
    · rfl
    · rfl
    · rfl
    · rfl
    · rfl
    · rfl
    · cases generic
  · have listed : typedByHand ⊆ builtinKeys := by decide
    have unlisted : (table, name) ∉ typedByHand := fun member => known (listed member)
    rw [typedByHand, List.mem_cons, not_or] at unlisted
    rw [handTypes?, find?_builtin_eq_none known, if_neg unlisted.1, if_neg unlisted.2]
    rfl

end ScriptGlue.CustomRegistry
