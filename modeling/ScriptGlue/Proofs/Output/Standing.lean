import Mathlib.Data.List.Basic
import ScriptGlue.Output.Assembly

/-!
# What becomes of a declaration

A declaration of a table is excluded by its name, or it could not be read, or its binding needs a
type without a mapping, or its binding is installed. This is decided here from the declaration
alone; the list of bindings, what is installed and what is reported are then picked out of the
declarations by it.
-/
namespace ScriptGlue

open Code

namespace Declaration

/-- The flags of the binding of a declaration. Code written by hand raises none. -/
def bindingFlags (g : GlueSettings) (table : Table) (d : Declaration) : List Flag :=
  if ((g.custom table d.name).bind (·.apiBody)).isSome then [] else (d.callBody table).value.2

def bindingStatements (g : GlueSettings) (table : Table) (d : Declaration) : List String :=
  match (g.custom table d.name).bind (·.apiBody) with
  | some body => [body]
  | none => (d.callBody table).value.1.statements d.name

def bindingBody (g : GlueSettings) (table : Table) (d : Declaration) : FunctionDef :=
  d.bindingDef g table (d.bindingFlags g table) (d.bindingStatements g table)

/-- Why the binding of a declaration is not installed. -/
def unmappedReason (g : GlueSettings) (table : Table) (d : Declaration) : String :=
  s!"unmapped type: {Binding.unknownTypes (d.bindingFlags g table)}"

variable {g : GlueSettings} {table : Table} {d : Declaration}

theorem binding_unparsable (unparsable : d.isUnparsable = true) : (d.binding g table).value =
    ⟨d, d.apiSymbol table, d.scriptName, none, .unparsable, []⟩ := by
  rw [binding, if_pos unparsable]
  rfl

/-- A declaration that could be read has a binding, whose flags decide on its status. -/
theorem binding_readable (readable : d.isUnparsable = false) : (d.binding g table).value =
    ⟨d, d.apiSymbol table, d.scriptName, some (d.bindingBody g table),
      Binding.statusOf (d.bindingFlags g table), d.bindingFlags g table⟩ := by
  rw [binding, if_neg (by simp [readable]), bindingBody, bindingFlags, bindingStatements]
  cases (g.custom table d.name).bind (·.apiBody) with
  | some body => rfl
  | none =>
    simp only [Logged.value_bind]
    split <;> rfl

end Declaration

namespace Output

inductive Standing where
  /-- Its name matches an excluded pattern. -/
  | excluded
  /-- Scripts can call it. -/
  | installed
  /-- Its binding is written but not installed. -/
  | flagged
  /-- It could not be read. -/
  | unparsable
  deriving DecidableEq, Repr

namespace Standing

/-- Whether there is code for the binding. -/
def isWritten : Standing → Bool
  | installed | flagged => true
  | excluded | unparsable => false

/-- Whether scripts would want the function and cannot have it. -/
def isFailed : Standing → Bool
  | flagged | unparsable => true
  | excluded | installed => false

end Standing

/-- What becomes of a declaration, from its name, its return type and the types that its binding
converts. -/
def standing (a : AssemblySettings) (table : Table) (d : Declaration) : Standing :=
  if isExcluded a d then .excluded
  else if d.isUnparsable then .unparsable
  else if (d.bindingFlags a.glue table).any (·.isUnknownType) then .flagged
  else .installed

/-- The declarations whose standing passes a test, in order. -/
def among (a : AssemblySettings) (p : ParsedTable) (test : Standing → Bool) : List Declaration :=
  p.declarations.filter fun d => test (standing a p.table d)

/-- How a binding follows from the standing of its declaration. -/
structure BindsAs (a : AssemblySettings) (table : Table) (d : Declaration) (b : Binding) :
    Prop where
  declaration : b.declaration = d
  symbol : b.symbol = d.apiSymbol table
  scriptName : b.scriptName = d.scriptName
  ready : b.status = .ready ↔ standing a table d = .installed
  flagged (reason : String) : b.status = .flagged reason ↔
    standing a table d = .flagged ∧ reason = d.unmappedReason a.glue table
  unparsable : b.status = .unparsable ↔ standing a table d = .unparsable
  definition : b.definition =
    if (standing a table d).isWritten then some (d.bindingBody a.glue table) else none
  flags : b.flags = if (standing a table d).isWritten then d.bindingFlags a.glue table else []

section

variable {a : AssemblySettings} {p : ParsedTable} {table : Table} {d : Declaration}

theorem standing_ne_excluded_iff : standing a table d ≠ .excluded ↔ isExcluded a d = false := by
  rw [standing]
  cases isExcluded a d with
  | true => simp
  | false =>
    simp only [Bool.false_eq_true, if_false]
    split
    · simp
    · split <;> simp

theorem standing_unparsable (table : Table) (bound : isExcluded a d = false)
    (unparsable : d.isUnparsable = true) : standing a table d = .unparsable := by
  rw [standing, if_neg (by simp [bound]), if_pos unparsable]

theorem standing_readable (table : Table) (bound : isExcluded a d = false)
    (readable : d.isUnparsable = false) : standing a table d =
      if (d.bindingFlags a.glue table).any (·.isUnknownType) then .flagged else .installed := by
  rw [standing, if_neg (by simp [bound]), if_neg (by simp [readable])]

theorem isUnparsable_of_standing (stands : standing a table d ≠ .excluded) :
    d.isUnparsable = (standing a table d == .unparsable) := by
  have bound := standing_ne_excluded_iff.mp stands
  cases unparsable : d.isUnparsable with
  | true => rw [standing_unparsable table bound unparsable]; rfl
  | false =>
    rw [standing_readable table bound unparsable]
    split <;> rfl

theorem bindsAs_binding (bound : isExcluded a d = false) :
    BindsAs a table d (d.binding a.glue table).value := by
  cases unparsable : d.isUnparsable with
  | true =>
    have stands := standing_unparsable table bound unparsable
    rw [Declaration.binding_unparsable unparsable]
    constructor <;> simp [stands, Standing.isWritten]
  | false =>
    have stands := standing_readable table bound unparsable
    rw [Declaration.binding_readable unparsable]
    cases unknown : (d.bindingFlags a.glue table).any (·.isUnknownType) with
    | true =>
      have status : Binding.statusOf (d.bindingFlags a.glue table) =
          .flagged (d.unmappedReason a.glue table) := if_pos unknown
      rw [if_pos unknown] at stands
      constructor <;> simp [stands, status, Standing.isWritten, eq_comm]
    | false =>
      have status : Binding.statusOf (d.bindingFlags a.glue table) = .ready :=
        if_neg (by simp [unknown])
      rw [if_neg (by simp [unknown])] at stands
      constructor <;> simp [stands, status, Standing.isWritten]

/-- What is made of every binding of a table can be made of its declarations. -/
theorem flatMap_bindings {β : Type} {make : Binding → List β} {made : Declaration → List β}
    (each : ∀ d b, BindsAs a p.table d b → make b = made d)
    (excluded : ∀ d, standing a p.table d = .excluded → made d = []) :
    (bindings a p).value.flatMap make = p.declarations.flatMap made := by
  rw [bindings, Logged.value_forEach, boundDeclarations]
  induction p.declarations with
  | nil => rfl
  | cons d r ih =>
    rw [List.filter_cons, List.flatMap_cons]
    cases bound : isExcluded a d with
    | true =>
      have stands : standing a p.table d = .excluded := if_pos bound
      rw [if_neg (by simp), excluded d stands, List.nil_append, ih]
    | false =>
      rw [if_pos (by simp), List.map_cons, List.flatMap_cons, each d _ (bindsAs_binding bound), ih]

/-- Lists from which nothing is taken unless a test is passed. -/
theorem flatMap_if {α β : Type} (test : α → Bool) (f : α → List β) (l : List α) :
    (l.flatMap fun a => if test a then f a else []) = (l.filter test).flatMap f := by
  induction l with
  | nil => rfl
  | cons a r ih =>
    rw [List.flatMap_cons, List.filter_cons, ih]
    cases test a <;> rfl

/-- What is picked from bindings of some standing is found by that standing. -/
theorem filterMap_bindings {β : Type} {pick : Binding → Option β} {test : Standing → Bool}
    {shown : Declaration → β} (excluded : test .excluded = false)
    (each : ∀ d b, BindsAs a p.table d b →
      pick b = if test (standing a p.table d) then some (shown d) else none) :
    (bindings a p).value.filterMap pick = (among a p test).map shown := by
  have taken : (bindings a p).value.flatMap (fun b => (pick b).toList) =
      p.declarations.flatMap fun d => if test (standing a p.table d) then [shown d] else [] := by
    refine flatMap_bindings (fun d b binds => ?_) fun d stands => ?_
    · rw [each d b binds]
      split <;> rfl
    · rw [stands, if_neg (by simp [excluded])]
  rw [List.filterMap_eq_flatMap_toList, taken,
    flatMap_if (fun d => test (standing a p.table d)) (fun d => [shown d]), among,
    List.map_eq_flatMap]

/-- Bindings are counted by the standings of their declarations. -/
theorem countP_bindings {keeps : Binding → Bool} {test : Standing → Bool}
    (excluded : test .excluded = false)
    (each : ∀ d b, BindsAs a p.table d b → keeps b = test (standing a p.table d)) :
    (bindings a p).value.countP keeps = (among a p test).length := by
  have picked : (bindings a p).value.filterMap (fun b => if keeps b then some () else none) =
      (among a p test).map fun _ => () :=
    filterMap_bindings excluded fun d b binds => by rw [each d b binds]
  have sizes := congrArg List.length picked
  rw [List.length_filterMap_eq_countP, List.length_map] at sizes
  rw [← sizes]
  refine List.countP_congr fun b _ => ?_
  cases keeps b <;> simp

/-- Every declaration has exactly one standing. -/
theorem length_among : p.declarations.length =
    (among a p (· == .excluded)).length + (among a p (· == .installed)).length +
      (among a p (· == .flagged)).length + (among a p (· == .unparsable)).length := by
  unfold among
  induction p.declarations with
  | nil => rfl
  | cons d r ih =>
    dsimp only at ih
    simp only [List.filter_cons]
    cases standing a p.table d <;> simp +decide <;> omega

end

end Output

end ScriptGlue
