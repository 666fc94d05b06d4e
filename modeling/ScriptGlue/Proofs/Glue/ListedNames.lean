import ScriptGlue.Declaration.Reading
import ScriptGlue.Glue.Typing
import ScriptGlue.Proofs.Glue.Passing

/-!
# Names of listed parameters

A signature for scripts lists arguments under their own names, except for three names that scripts
reserve, and takes any further arguments under one more name. Each name is replaced without a look
at the others, so what has a name of its own in the native signature need not have one here.
-/
namespace ScriptGlue

open Code

/-- The words that ECMAScript reserves, `await` and `yield` with them. -/
def ecmaReserved : List String :=
  ["await", "break", "case", "catch", "class", "const", "continue", "debugger", "default",
    "delete", "do", "else", "enum", "export", "extends", "false", "finally", "for", "function",
    "if", "import", "in", "instanceof", "new", "null", "return", "super", "switch", "this",
    "throw", "true", "try", "typeof", "var", "void", "while", "with", "yield"]

namespace Code.TypedSignature

/-- The name of the parameter that takes any further arguments. -/
def restName : String := "args"

/-- Any further arguments are written under this name. -/
theorem restParam_eq : restParam = s!"...{restName}: any[]" := rfl

def listedNames (s : TypedSignature) : List String :=
  s.params.map (·.name) ++ if s.rest then [restName] else []

/-- No name is listed twice, and none is a word that scripts reserve. -/
structure Usable (s : TypedSignature) : Prop where
  distinct : s.listedNames.Nodup
  free : ∀ name ∈ s.listedNames, name ∉ ecmaReserved

end Code.TypedSignature

/-- What the native names of arguments must keep to for scripts to have usable ones. -/
structure ListsApart (names : List String) (variadic : Bool) : Prop where
  /-- No name is the one that another gets. -/
  replaced : ∀ pair ∈ reservedNames, pair.1 ∈ names → pair.2 ∉ names
  /-- No name is that of any further arguments. -/
  rest : variadic = true → Code.TypedSignature.restName ∉ names
  /-- No name is a reserved word, unless it is replaced. -/
  reserved : ∀ name ∈ names, name ∈ ecmaReserved → name ∈ reservedNames.map Prod.fst

/-! ### Replaced names -/

theorem scriptSafeName_of_mem : ∀ pair ∈ reservedNames, scriptSafeName pair.1 = pair.2 := by
  decide

theorem scriptSafeName_of_not_mem {name : String} (kept : name ∉ reservedNames.map Prod.fst) :
    scriptSafeName name = name := by
  rw [scriptSafeName, List.lookup_eq_none_iff.mpr, Option.getD_none]
  intro pair member
  rw [bne_iff_ne]
  rintro rfl
  exact kept (List.mem_map_of_mem member)

/-- A name is replaced by the one beside it in the table, or kept. -/
theorem scriptSafeName_cases (name : String) :
    (∃ pair ∈ reservedNames, pair.1 = name ∧ scriptSafeName name = pair.2) ∨
      name ∉ reservedNames.map Prod.fst ∧ scriptSafeName name = name := by
  by_cases replaced : name ∈ reservedNames.map Prod.fst
  · obtain ⟨pair, member, rfl⟩ := List.mem_map.mp replaced
    exact .inl ⟨pair, member, rfl, scriptSafeName_of_mem pair member⟩
  · exact .inr ⟨replaced, scriptSafeName_of_not_mem replaced⟩

/-- No name that takes the place of another is replaced in turn. -/
theorem scriptSafeName_replacement {pair : String × String} (member : pair ∈ reservedNames) :
    scriptSafeName pair.2 = pair.2 := by
  have kept : ∀ pair ∈ reservedNames, pair.2 ∉ reservedNames.map Prod.fst := by decide
  exact scriptSafeName_of_not_mem (kept pair member)

/-- Rewriting keeps names apart unless the new spelling of one is there already. -/
theorem scriptSafeName_injOn_iff {names : List String} :
    (∀ a ∈ names, ∀ b ∈ names, scriptSafeName a = scriptSafeName b → a = b) ↔
      ∀ pair ∈ reservedNames, pair.1 ∈ names → pair.2 ∉ names := by
  have differ : ∀ pair ∈ reservedNames, pair.1 ≠ pair.2 := by decide
  have apart : ∀ p ∈ reservedNames, ∀ q ∈ reservedNames, p.2 = q.2 → p.1 = q.1 := by decide
  constructor
  · intro inj pair member here there
    have same := (scriptSafeName_of_mem pair member).trans (scriptSafeName_replacement member).symm
    exact differ pair member (inj _ here _ there same)
  · intro replaced a inA b inB same
    rcases scriptSafeName_cases a with ⟨p, hp, rfl, toP⟩ | ⟨-, keptA⟩ <;>
      rcases scriptSafeName_cases b with ⟨q, hq, rfl, toQ⟩ | ⟨-, keptB⟩
    · exact apart p hp q hq (toP.symm.trans (same.trans toQ))
    · obtain rfl : p.2 = b := toP.symm.trans (same.trans keptB)
      exact absurd inB (replaced p hp inA)
    · obtain rfl : q.2 = a := toQ.symm.trans (same.symm.trans keptA)
      exact absurd inA (replaced q hq inB)
    · exact keptA.symm.trans (same.trans keptB)

theorem restName_mem_iff {names : List String} :
    TypedSignature.restName ∈ names.map scriptSafeName ↔ TypedSignature.restName ∈ names := by
  have other : ∀ pair ∈ reservedNames, pair.2 ≠ TypedSignature.restName := by decide
  have kept : scriptSafeName TypedSignature.restName = TypedSignature.restName := by decide
  constructor
  · intro listed
    obtain ⟨name, member, same⟩ := List.mem_map.mp listed
    rcases scriptSafeName_cases name with ⟨pair, inTable, -, gives⟩ | ⟨-, keptName⟩
    · exact absurd (gives.symm.trans same) (other pair inTable)
    · rwa [← same, keptName]
  · intro member
    rw [← kept]
    exact List.mem_map_of_mem member

/-- A name is rewritten to a free one, unless it is reserved and no row rewrites it. -/
theorem scriptSafeName_free_iff {name : String} :
    scriptSafeName name ∉ ecmaReserved ↔
      (name ∈ ecmaReserved → name ∈ reservedNames.map Prod.fst) := by
  have free : ∀ pair ∈ reservedNames, pair.2 ∉ ecmaReserved := by decide
  rcases scriptSafeName_cases name with ⟨pair, member, rfl, gives⟩ | ⟨kept, same⟩
  · rw [gives]
    exact iff_of_true (free pair member) fun _ => List.mem_map_of_mem member
  · rw [same]
    exact ⟨fun free inList => absurd inList free, fun known inList => kept (known inList)⟩

/-- A signature that lists distinct names, each replaced where scripts reserve it, is usable exactly
if the names are apart in the ways in which replacing can bring them together. -/
theorem Code.TypedSignature.usable_iff_of_listed {s : TypedSignature} {names : List String}
    (listed : s.params.map (·.name) = names.map scriptSafeName) (distinct : names.Nodup) :
    s.Usable ↔ ListsApart names s.rest := by
  have once : (names.map scriptSafeName).Nodup ↔
      ∀ pair ∈ reservedNames, pair.1 ∈ names → pair.2 ∉ names :=
    (List.nodup_map_iff_inj_on distinct).trans scriptSafeName_injOn_iff
  have free : (∀ name ∈ names.map scriptSafeName, name ∉ ecmaReserved) ↔
      ∀ name ∈ names, name ∈ ecmaReserved → name ∈ reservedNames.map Prod.fst := by
    simp only [List.forall_mem_map, scriptSafeName_free_iff]
  have restFree : restName ∉ ecmaReserved := by decide
  constructor
  · rintro ⟨nodup, unreserved⟩
    rw [listedNames, listed, List.nodup_append] at nodup
    rw [listedNames, listed] at unreserved
    refine ⟨once.mp nodup.1, fun more member => ?_,
      free.mp fun name member => unreserved name (List.mem_append_left _ member)⟩
    rw [if_pos more] at nodup
    exact nodup.2.2 _ (restName_mem_iff.mpr member) _ List.mem_cons_self rfl
  · rintro ⟨replaced, rest, reserved⟩
    constructor
    · rw [listedNames, listed, List.nodup_append]
      refine ⟨once.mpr replaced, ?_, ?_⟩
      · split <;> simp
      · rintro name member _ more rfl
        split at more
        · rename_i any
          obtain rfl := List.mem_singleton.mp more
          exact rest any (restName_mem_iff.mp member)
        · cases more
    · intro name member
      rw [listedNames, listed] at member
      rcases List.mem_append.mp member with member | more
      · exact free.mpr reserved name member
      · split at more
        · obtain rfl := List.mem_singleton.mp more
          exact restFree
        · cases more

namespace Declaration

variable {d : Declaration}

theorem names_typed {args : List ScriptArg} (folded : ∀ a ∈ args, a ∈ d.scriptArgs) :
    (args.map (·.typed)).map (·.name) = (args.map (·.name)).map scriptSafeName := by
  rw [List.map_map, List.map_map]
  exact List.map_congr_left fun a member => foldArgs_scriptName (folded a member)

/-- For a readable declaration whose arguments have distinct names and that has no fragments, the
signature of the call and that of the event list usable names exactly if the names of the arguments
they list are apart in the ways in which replacing can bring them together. -/
theorem usable_iff (g : GlueSettings) (table : Table) (phase : Phase) (d : Declaration)
    (readable : d.isUnparsable = false) (distinct : d.DistinctNames)
    (generic : g.custom table d.name = none) :
    ((d.apiTyping g table).Usable ↔ ListsApart (d.callerArgs.map (·.name)) d.isVariadic) ∧
    ∃ s, d.eventTyping? g table phase = some s ∧
      (s.Usable ↔ ListsApart (d.scriptArgs.map (·.name)) d.isVariadic) := by
  constructor
  · have apiParams : (d.apiTyping g table).params = d.callerArgs.map (·.typed) := by
      simp only [apiTyping, generic, Option.bind_none, Option.getD_none]
    have apiRest : (d.apiTyping g table).rest = d.isVariadic := by
      simp only [apiTyping, generic, Option.bind_none, Option.isNone_none, Bool.true_and]
    rw [← apiRest]
    refine TypedSignature.usable_iff_of_listed ?_ (distinct.scriptArgs_nodup.sublist
      (d.callerArgs_sublist.map _))
    rw [apiParams, names_typed d.callerArgs_sublist.subset]
  · refine ⟨{
      name := d.eventName table phase
      params := d.scriptArgs.map (·.typed)
      rest := d.isVariadic
      returns := "void" }, ?_, ?_⟩
    · simp only [eventTyping?, readable, generic, Bool.false_and, Bool.false_eq_true, if_false,
        Option.bind_none, Option.isNone_none, Bool.true_and, Option.getD_none]
    · have listed := names_typed (d := d) fun _ member => member
      exact TypedSignature.usable_iff_of_listed listed distinct.scriptArgs_nodup

/-- A function with an argument whose name scripts reserve, and any further ones. -/
def samplePrint : Declaration where
  name := "pfnPrint"
  returnType := "void"
  args := [.fixed ⟨"class", "const char*", none⟩, .fixed ⟨"format", "const char*", none⟩, .variadic]
  text := "void (*pfnPrint)(const char *class, const char *format, ...);"
  line := 1

theorem usable_print :
    samplePrint.isUnparsable = false ∧ samplePrint.DistinctNames ∧
      CustomProvider.none .engine samplePrint.name = none ∧
      (samplePrint.apiTyping { custom := CustomProvider.none } .engine).Usable ∧
      ∃ s, samplePrint.eventTyping? { custom := CustomProvider.none } .engine .post = some s ∧
        s.Usable := by
  have apart : ListsApart (samplePrint.scriptArgs.map (·.name)) samplePrint.isVariadic :=
    ⟨by decide, by decide, by decide⟩
  have same : samplePrint.callerArgs = samplePrint.scriptArgs := by decide +kernel
  obtain ⟨api, s, typed, event⟩ := usable_iff { custom := CustomProvider.none } .engine .post
    samplePrint (by decide) (by decide) rfl
  refine ⟨by decide, by decide, rfl, api.mpr ?_, s, typed, event.mpr apart⟩
  rw [same]
  exact apart

/-- A function with an argument that is named as the one before it is for scripts. -/
def sampleSet : Declaration where
  name := "pfnSet"
  returnType := "void"
  args := [.fixed ⟨"var", "int", none⟩, .fixed ⟨"variable", "int", none⟩]
  text := "void (*pfnSet)(int var, int variable);"
  line := 1

/-- Both signatures list the name `variable` twice. -/
theorem not_usable_set :
    read sampleSet.text sampleSet.text 1 = .ok sampleSet ∧ sampleSet.isUnparsable = false ∧
      sampleSet.DistinctNames ∧
      ¬ (sampleSet.apiTyping { custom := CustomProvider.none } .engine).Usable ∧
      ∃ s, sampleSet.eventTyping? { custom := CustomProvider.none } .engine .base = some s ∧
        s.listedNames = ["variable", "variable"] ∧ ¬ s.Usable := by
  have twice : ¬ ["variable", "variable"].Nodup := by decide
  refine ⟨by decide +kernel, by decide, by decide, ?_, _, rfl, rfl, ?_⟩
  · have listed : (sampleSet.apiTyping { custom := CustomProvider.none } .engine).listedNames =
        ["variable", "variable"] := by
      decide +kernel
    exact fun usable => twice (listed ▸ usable.distinct)
  · exact fun usable => twice usable.distinct

end Declaration

end ScriptGlue
