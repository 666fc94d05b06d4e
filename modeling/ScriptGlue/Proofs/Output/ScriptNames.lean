import ScriptGlue.Proofs.Output.Surface
import ScriptGlue.Proofs.Text.CamelWords

/-!
# Names that scripts see

Scripts call functions and listen to events under names in camel case, in which the mark of a
function pointer, underscores and some letter case are lost. No two tables and no two phases share
an event, but functions of one table share their names if nothing else sets them apart.
-/
namespace ScriptGlue

open Code Text

/-! ### Names in words -/

/-- What starts with the stem of an event tells the table and the phase. -/
theorem Table.eventStem_append_inj {table table' : Table} {phase phase' : Phase} {s s' : List Char}
    (same : (table.eventStem phase).toList ++ s = (table'.eventStem phase').toList ++ s') :
    table = table' ∧ phase = phase' ∧ s = s' := by
  revert same
  cases table <;> cases phase <;> cases table' <;> cases phase' <;> simp [Table.eventStem]

namespace Declaration

/-- The words of the name without the mark of a function pointer. -/
def nameWords (d : Declaration) : List (List Char) := Text.nameWords d.bareName.toList

theorem scriptName_eq (d : Declaration) :
    d.scriptName = String.ofList (joined lowered d.nameWords) := camelCase_eq d.bareName

theorem eventName_eq (d : Declaration) (table : Table) (phase : Phase) :
    d.eventName table phase =
      String.ofList ((table.eventStem phase).toList ++ joined id d.nameWords) := by
  refine camelCase_stem ?_ ?_ ?_ d.bareName <;> cases table <;> cases phase <;> decide

/-- An event tells its table, its phase and the name of its function, as far as camel case keeps
it. -/
theorem eventName_inj {d e : Declaration} {table table' : Table} {phase phase' : Phase}
    (same : d.eventName table phase = e.eventName table' phase') :
    table = table' ∧ phase = phase' ∧ joined id d.nameWords = joined id e.nameWords := by
  rw [eventName_eq, eventName_eq] at same
  exact Table.eventStem_append_inj (String.ofList_injective same)

/-- A name with the mark of a function pointer, then a capital and no underscores. -/
def IsPlainName (name : String) : Prop :=
  ∃ c r, name.toList = 'p' :: 'f' :: 'n' :: c :: r ∧ c.isUpper = true ∧ '_' ∉ r

theorem bounds_of_isUpper {c : Char} (upper : c.isUpper = true) : 65 ≤ c.toNat ∧ c.toNat ≤ 90 :=
  of_decide_eq_true upper

theorem toUpper_toLower {c : Char} (upper : c.isUpper = true) : c.toLower.toUpper = c := by
  have points : ∀ n ∈ List.range 91, 65 ≤ n → (Char.ofNat n).toLower.toUpper = Char.ofNat n := by
    decide
  have bounds := bounds_of_isUpper upper
  have here := points c.toNat (List.mem_range.mpr (by omega)) bounds.1
  rwa [Char.ofNat_toNat] at here

theorem lowered_cons {c : Char} (upper : c.isUpper = true) (r : List Char) :
    lowered (c :: r) = c.toLower :: r := by
  have ascii : c.toNat < 128 := Nat.lt_of_le_of_lt (bounds_of_isUpper upper).2 (by decide)
  rw [lowered, lowerChar, if_pos ascii]
  rfl

/-- Camel case keeps all of a plain name but the mark and the case of the capital. -/
theorem IsPlainName.joined_eq {d : Declaration} (plain : IsPlainName d.name) :
    ∃ c r, d.name.toList = 'p' :: 'f' :: 'n' :: c :: r ∧ c.isUpper = true ∧
      ∀ first, joined first d.nameWords = first (c :: r) := by
  obtain ⟨c, r, name, upper, plain⟩ := plain
  have bare : d.bareName.toList = c :: r := by
    rw [bareName, dropLead?, Text.startsWith, if_pos (by simp [name]), Option.getD_some,
      String.toList_ofList, name]
    rfl
  have other : '_' ∉ c :: r := by
    intro member
    rcases List.mem_cons.mp member with rfl | later
    · cases upper
    · exact plain later
  refine ⟨c, r, name, upper, fun first => ?_⟩
  rw [nameWords, bare, nameWords_plain other, joined]
  exact List.append_nil _

/-- So plain names can be told from their camel case, be it with the capital or without. -/
theorem IsPlainName.eq_of_joined {d e : Declaration} (hd : IsPlainName d.name)
    (he : IsPlainName e.name) {first : List Char → List Char} (kept : first = id ∨ first = lowered)
    (same : joined first d.nameWords = joined first e.nameWords) : d.name = e.name := by
  obtain ⟨c, r, nameD, upperD, joinedD⟩ := hd.joined_eq
  obtain ⟨c', r', nameE, upperE, joinedE⟩ := he.joined_eq
  rw [joinedD, joinedE] at same
  have letters : c = c' ∧ r = r' := by
    rcases kept with rfl | rfl
    · exact List.cons.inj same
    · rw [lowered_cons upperD, lowered_cons upperE] at same
      obtain ⟨small, rest⟩ := List.cons.inj same
      exact ⟨by rw [← toUpper_toLower upperD, small, toUpper_toLower upperE], rest⟩
  rw [← String.toList_inj, nameD, nameE, letters.1, letters.2]

end Declaration

namespace Output

def calledNames (a : AssemblySettings) (p : ParsedTable) : List String :=
  ((bindings a p).value.filter (·.status == .ready)).map (·.scriptName)

/-- The events of a table that are made known, for both phases. -/
def knownEvents (g : GlueSettings) (p : ParsedTable) : List String :=
  eventNames (eventSlots g p .base).value ++ eventNames (eventSlots g p .post).value

def handled (g : GlueSettings) (p : ParsedTable) : List Declaration :=
  p.declarations.filter (!·.isUnhandled g p.table)

theorem calledNames_eq (a : AssemblySettings) (p : ParsedTable) :
    calledNames a p = (among a p (· == .installed)).map (·.scriptName) :=
  ready_bindings a p fun _ _ binds => binds.scriptName

theorem calledNames_nodup_iff (a : AssemblySettings) (p : ParsedTable) :
    (calledNames a p).Nodup ↔
      ((among a p (· == .installed)).map fun d => joined lowered d.nameWords).Nodup := by
  have spelled : calledNames a p = ((among a p (· == .installed)).map fun d =>
      joined lowered d.nameWords).map String.ofList := by
    rw [calledNames_eq, List.map_map]
    exact List.map_congr_left fun d _ => d.scriptName_eq
  rw [spelled, List.nodup_map_iff fun _ _ => String.ofList_injective]

/-- Two lists of events share none unless they are of one table and one phase. -/
theorem eventsOf_disjoint {g : GlueSettings} {p q : ParsedTable} {phase phase' : Phase}
    (apart : p.table ≠ q.table ∨ phase ≠ phase') :
    ∀ e ∈ eventsOf g p phase, ∀ f ∈ eventsOf g q phase', e ≠ f := by
  rintro _ inP _ inQ rfl
  obtain ⟨d, -, rfl⟩ := List.mem_map.mp inP
  obtain ⟨e, -, same⟩ := List.mem_map.mp inQ
  obtain ⟨tables, phases, -⟩ := Declaration.eventName_inj same
  exact apart.elim (fun differ => differ tables.symm) fun differ => differ phases.symm

theorem eventsOf_nodup_iff (g : GlueSettings) (p : ParsedTable) (phase : Phase) :
    (eventsOf g p phase).Nodup ↔ ((handled g p).map fun d => joined id d.nameWords).Nodup := by
  have spelled : eventsOf g p phase = ((handled g p).map fun d => joined id d.nameWords).map
      fun s => String.ofList ((p.table.eventStem phase).toList ++ s) := by
    rw [eventsOf, List.map_map]
    exact List.map_congr_left fun d _ => d.eventName_eq p.table phase
  have inj : Function.Injective
      fun s : List Char => String.ofList ((p.table.eventStem phase).toList ++ s) :=
    fun s t same => List.append_cancel_left (String.ofList_injective same)
  rw [spelled, List.nodup_map_iff inj]

theorem knownEvents_nodup_iff (g : GlueSettings) (p : ParsedTable) :
    (knownEvents g p).Nodup ↔ ((handled g p).map fun d => joined id d.nameWords).Nodup := by
  rw [knownEvents, eventNames_eventSlots, eventNames_eventSlots, List.nodup_append,
    eventsOf_nodup_iff, eventsOf_nodup_iff]
  exact ⟨fun all => all.1, fun once => ⟨once, once, eventsOf_disjoint (.inr (by decide))⟩⟩

theorem knownEvents_disjoint {g : GlueSettings} {p q : ParsedTable} (apart : p.table ≠ q.table) :
    ∀ e ∈ knownEvents g p, ∀ f ∈ knownEvents g q, e ≠ f := by
  intro e inP f inQ
  rw [knownEvents, eventNames_eventSlots, eventNames_eventSlots, List.mem_append] at inP inQ
  rcases inP with inP | inP <;> rcases inQ with inQ | inQ <;>
    exact eventsOf_disjoint (.inl apart) e inP f inQ

/-- Scripts can tell the functions of two tables apart exactly as far as camel case keeps their
names apart within each table: for calls with the first letter lowered, for events with it kept. If
all names are plain then it does so wherever the names differ. -/
theorem scriptNames_nodup_iff (a : AssemblySettings) {p q : ParsedTable}
    (apart : p.table ≠ q.table) :
    (∀ t ∈ [p, q], (calledNames a t).Nodup ↔
      ((among a t (· == .installed)).map fun d => joined lowered d.nameWords).Nodup) ∧
    ((knownEvents a.glue p ++ knownEvents a.glue q).Nodup ↔
      ∀ t ∈ [p, q], ((handled a.glue t).map fun d => joined id d.nameWords).Nodup) ∧
    ((∀ t ∈ [p, q], (t.declarations.map (·.name)).Nodup ∧
        ∀ d ∈ t.declarations, Declaration.IsPlainName d.name) →
      (∀ t ∈ [p, q], (calledNames a t).Nodup) ∧
        (knownEvents a.glue p ++ knownEvents a.glue q).Nodup) := by
  have events : (knownEvents a.glue p ++ knownEvents a.glue q).Nodup ↔
      ∀ t ∈ [p, q], ((handled a.glue t).map fun d => joined id d.nameWords).Nodup := by
    rw [List.nodup_append, knownEvents_nodup_iff, knownEvents_nodup_iff,
      and_iff_left (knownEvents_disjoint apart)]
    simp
  -- plain names stay apart in every part of a table
  have kept {first : List Char → List Char} (keeps : first = id ∨ first = lowered)
      {t : ParsedTable} (distinct : (t.declarations.map (·.name)).Nodup)
      (plain : ∀ d ∈ t.declarations, Declaration.IsPlainName d.name) {ds : List Declaration}
      (part : ds.Sublist t.declarations) : (ds.map fun d => joined first d.nameWords).Nodup := by
    refine List.Nodup.map_on (fun d inD e inE same => ?_) (distinct.of_map.sublist part)
    have names := (plain d (part.subset inD)).eq_of_joined (plain e (part.subset inE)) keeps same
    exact List.inj_on_of_nodup_map distinct (part.subset inD) (part.subset inE) names
  refine ⟨fun t _ => calledNames_nodup_iff a t, events, fun plain => ⟨fun t member => ?_, ?_⟩⟩
  · obtain ⟨distinct, names⟩ := plain t member
    exact (calledNames_nodup_iff a t).mpr (kept (.inr rfl) distinct names List.filter_sublist)
  · refine events.mpr fun t member => ?_
    obtain ⟨distinct, names⟩ := plain t member
    exact kept (.inl rfl) distinct names List.filter_sublist

def pairHeader (table : Table) (one other : String) : String :=
  "typedef struct \x7b\nvoid (*" ++ one ++ ")(int a);\nvoid (*" ++ other ++ ")(int a);\n\x7d " ++
    table.structName ++ ";"

def pairTable (table : Table) (one other : String) : ParsedTable where
  table := table
  declarations := [
    ⟨one, "void", [.fixed ⟨"a", "int", none⟩], "void (*" ++ one ++ ")(int a);", 2⟩,
    ⟨other, "void", [.fixed ⟨"a", "int", none⟩], "void (*" ++ other ++ ")(int a);", 3⟩]
  skipped := []

def plainSettings : AssemblySettings where
  glue := { custom := CustomProvider.none }
  scriptNamespace := "nodemod"

theorem ofHeader_pair (table : Table) :
    (ParsedTable.ofHeader (pairHeader table "pfnRun" "pfnRunAll") table).toOption.map (·.value) =
      some (pairTable table "pfnRun" "pfnRunAll") := by
  cases table <;> decide +kernel

theorem scriptNames_nodup_pair :
    (∀ table : Table,
      (ParsedTable.ofHeader (pairHeader table "pfnRun" "pfnRunAll") table).toOption.map (·.value) =
        some (pairTable table "pfnRun" "pfnRunAll")) ∧
    (∀ t ∈ [pairTable .dll "pfnRun" "pfnRunAll", pairTable .engine "pfnRun" "pfnRunAll"],
      (calledNames plainSettings t).Nodup) ∧
    (knownEvents plainSettings.glue (pairTable .dll "pfnRun" "pfnRunAll") ++
      knownEvents plainSettings.glue (pairTable .engine "pfnRun" "pfnRunAll")).Nodup := by
  refine ⟨ofHeader_pair, ?_⟩
  have plain (table : Table) : ((pairTable table "pfnRun" "pfnRunAll").declarations.map
      (·.name)).Nodup ∧ ∀ d ∈ (pairTable table "pfnRun" "pfnRunAll").declarations,
        Declaration.IsPlainName d.name := by
    have distinct : ["pfnRun", "pfnRunAll"].Nodup := by decide
    refine ⟨distinct, fun d member => ?_⟩
    simp only [pairTable, List.mem_cons, List.not_mem_nil, or_false] at member
    rcases member with rfl | rfl
    · exact ⟨'R', ['u', 'n'], by decide⟩
    · exact ⟨'R', ['u', 'n', 'A', 'l', 'l'], by decide⟩
  refine (scriptNames_nodup_iff plainSettings (by decide)).2.2 fun t member => ?_
  simp only [List.mem_cons, List.not_mem_nil, or_false] at member
  rcases member with rfl | rfl <;> exact plain _

/-- Two functions whose names differ in an underscore are called by one name and raise the same
events. -/
theorem scriptNames_shared_pair :
    (ParsedTable.ofHeader (pairHeader .dll "pfnRun_All" "pfnRunAll") .dll).toOption.map (·.value) =
      some (pairTable .dll "pfnRun_All" "pfnRunAll") ∧
    (ParsedTable.ofHeader (pairHeader .engine "pfnRun" "pfnRunAll") .engine).toOption.map
      (·.value) = some (pairTable .engine "pfnRun" "pfnRunAll") ∧
    ((pairTable .dll "pfnRun_All" "pfnRunAll").declarations.map (·.name)).Nodup ∧
    ((pairTable .engine "pfnRun" "pfnRunAll").declarations.map (·.name)).Nodup ∧
    calledNames plainSettings (pairTable .dll "pfnRun_All" "pfnRunAll") = ["runAll", "runAll"] ∧
    ¬ (calledNames plainSettings (pairTable .dll "pfnRun_All" "pfnRunAll")).Nodup ∧
    ¬ (knownEvents plainSettings.glue (pairTable .dll "pfnRun_All" "pfnRunAll") ++
      knownEvents plainSettings.glue (pairTable .engine "pfnRun" "pfnRunAll")).Nodup := by
  have called : calledNames plainSettings (pairTable .dll "pfnRun_All" "pfnRunAll") =
      ["runAll", "runAll"] := by
    decide +kernel
  have twice : ¬ ["runAll", "runAll"].Nodup := by decide
  exact ⟨by decide +kernel, ofHeader_pair .engine, by decide, by decide, called, called ▸ twice,
    by decide +kernel⟩

end Output

end ScriptGlue
