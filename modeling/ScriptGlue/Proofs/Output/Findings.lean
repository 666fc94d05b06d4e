import Mathlib.Data.List.Nodup
import ScriptGlue.Proofs.Output.Slots
import ScriptGlue.Proofs.Output.Standing
import ScriptGlue.Proofs.Report

/-!
# Findings about a table

Findings are made at three points: where declarations are read, where handlers are made and where
bindings are. The message of a finding tells which of them it comes from, and so each declaration
has the findings that it should have, once.
-/
namespace ScriptGlue

open Code

/-- What a finding is about, by the beginning of its message. -/
inductive Topic where
  | unreadable
  /-- A flag of a handler. -/
  | handlerFlag
  /-- A flag of the code of a binding. -/
  | bodyFlag
  /-- A binding that is not installed. -/
  | rejection
  | other
  deriving DecidableEq, Repr

def Finding.topic (f : Finding) : Topic :=
  if f.message = "unparsable declaration" then .unreadable
  else if Text.startsWith f.message "API not installed: " then .rejection
  else if Text.startsWith f.message "API body: " then .bodyFlag
  else if Text.startsWith f.message "unknown type " || Text.startsWith f.message "assumed length "
    then .handlerFlag
  else .other

namespace Output

/-- The finding about a declaration whose binding is not installed. -/
def rejection (a : AssemblySettings) (table : Table) (d : Declaration) : Finding :=
  (flagFinding a table d s!"API not installed: {d.unmappedReason a.glue table}").quoting d.text

def handlerFlags (a : AssemblySettings) (table : Table) (phase : Phase) (d : Declaration) :
    List Finding :=
  (d.eventSlot a.glue table phase).value.flags.map fun f => flagFinding a table d f.message

variable {a : AssemblySettings} {table : Table} {p : ParsedTable} {d : Declaration}

/-! ### Topics -/

theorem topic_flagFinding (f : Flag) : (flagFinding a table d f.message).topic = .handlerFlag := by
  cases f with
  | unknownType arg type =>
    have spelled : (flagFinding a table d (Flag.unknownType arg type).message).message =
        "unknown type " ++ type ++ " (" ++ arg ++ ")" := rfl
    simp [Finding.topic, spelled, Text.startsWith, ← String.toList_inj]
  | assumedLength arg length =>
    have spelled : (flagFinding a table d (Flag.assumedLength arg length).message).message =
        "assumed length " ++ toString length ++ " for " ++ arg := rfl
    simp [Finding.topic, spelled, Text.startsWith, ← String.toList_inj]

theorem topic_bodyFlag (message : String) :
    (flagFinding a table d s!"API body: {message}").topic = .bodyFlag := by
  have spelled : (flagFinding a table d s!"API body: {message}").message =
      "API body: " ++ message := rfl
  simp [Finding.topic, spelled, Text.startsWith, ← String.toList_inj]

theorem topic_rejection : (rejection a table d).topic = .rejection := by
  have spelled : (rejection a table d).message =
      "API not installed: " ++ d.unmappedReason a.glue table := rfl
  simp [Finding.topic, spelled, Text.startsWith, ← String.toList_inj]

/-- Findings that are all about one thing. -/
theorem filter_topic {fs : List Finding} {t : Topic} (about : ∀ f ∈ fs, f.topic = t)
    (wanted : Topic) : fs.filter (·.topic == wanted) = if t = wanted then fs else [] := by
  split
  · rename_i same
    exact List.filter_eq_self.mpr fun f member => by simp [about f member, same]
  · rename_i differs
    exact List.filter_eq_nil_iff.mpr fun f member => by simp [about f member, differs]

/-! ### The three sources -/

/-- Both phases raise the same flags. -/
theorem flags_eventSlot (g : GlueSettings) (table : Table) (d : Declaration) (phase : Phase) :
    (d.eventSlot g table phase).value.flags = (d.eventSlot g table .base).value.flags := by
  unfold Declaration.eventSlot
  dsimp only
  split <;> rfl

theorem eventFindings_eventSlots (a : AssemblySettings) (p : ParsedTable) (phase : Phase) :
    eventFindings a p (eventSlots a.glue p phase).value =
      p.declarations.flatMap (handlerFlags a p.table phase) := by
  rw [eventFindings, eventSlots, Logged.value_forEach]
  induction p.declarations with
  | nil => rfl
  | cons d r ih =>
    rw [List.map_cons, List.zip_cons_cons, List.flatMap_cons, List.flatMap_cons, ih]
    rfl

/-- The findings about the code of the binding of a declaration. Types without a mapping are left to
the rejection. -/
def bodyFlags (a : AssemblySettings) (table : Table) (d : Declaration) : List Finding :=
  ((d.bindingFlags a.glue table).filter (!·.isUnknownType)).map fun f =>
    flagFinding a table d s!"API body: {f.message}"

/-- The findings about a binding, from the standing of its declaration. -/
theorem bindingFindings_eq {b : Binding} (binds : BindsAs a table d b) : bindingFindings a table b =
    (if (standing a table d).isWritten then bodyFlags a table d else []) ++
      if standing a table d == .flagged then [rejection a table d] else [] := by
  rw [bindingFindings, binds.flags, binds.declaration]
  congr 1
  · split <;> rfl
  · cases status : b.status with
    | flagged reason =>
      obtain ⟨stands, rfl⟩ := (binds.flagged reason).mp status
      rw [stands]
      rfl
    | ready => simp [binds.ready.mp status]
    | unparsable => simp [binds.unparsable.mp status]

def findingsOn (a : AssemblySettings) (p : ParsedTable) : Topic → List Finding
  | .unreadable => p.unparsable.map (unparsableFinding a p.table)
  | .handlerFlag => p.declarations.flatMap (handlerFlags a p.table .base)
  | .bodyFlag => (among a p (·.isWritten)).flatMap (bodyFlags a p.table)
  | .rejection => (among a p (· == .flagged)).map (rejection a p.table)
  | .other => []

/-- The findings about a table are told topic by topic, and those about bindings one declaration
after the other. -/
theorem tableFindings_tableOutput (a : AssemblySettings) (p : ParsedTable) :
    tableFindings a p (tableOutput a p).value =
      findingsOn a p .unreadable ++ findingsOn a p .handlerFlag ++
        p.declarations.flatMap fun d =>
          (if (standing a p.table d).isWritten then bodyFlags a p.table d else []) ++
            if standing a p.table d == .flagged then [rejection a p.table d] else [] := by
  rw [tableFindings, value_tableOutput]
  congr 1
  · exact congrArg (_ ++ ·) (eventFindings_eventSlots a p .base)
  · exact flatMap_bindings (fun d b binds => bindingFindings_eq binds) fun d stands => by
      rw [stands]
      rfl

/-- Of the findings about a binding, a topic has those that belong to it. -/
theorem filter_bindingParts (wanted : Topic) :
    ((if (standing a table d).isWritten then bodyFlags a table d else []) ++
        if standing a table d == .flagged then [rejection a table d] else []).filter
          (·.topic == wanted) =
      (if Topic.bodyFlag = wanted then
        if (standing a table d).isWritten then bodyFlags a table d else [] else []) ++
        if Topic.rejection = wanted then
          if standing a table d == .flagged then [rejection a table d] else [] else [] := by
  rw [List.filter_append]
  congr 1
  · refine filter_topic (fun f member => ?_) wanted
    split at member
    · obtain ⟨flag, -, rfl⟩ := List.mem_map.mp member
      exact topic_bodyFlag flag.message
    · cases member
  · refine filter_topic (fun f member => ?_) wanted
    split at member
    · rw [List.mem_singleton.mp member, topic_rejection]
    · cases member

/-- Each topic has its findings and no others. -/
theorem filter_tableFindings (a : AssemblySettings) (p : ParsedTable) (wanted : Topic) :
    (tableFindings a p (tableOutput a p).value).filter (·.topic == wanted) =
      findingsOn a p wanted := by
  have unreadable : ∀ f ∈ findingsOn a p .unreadable, f.topic = .unreadable := by
    intro f member
    obtain ⟨d, -, rfl⟩ := List.mem_map.mp member
    rfl
  have handlers : ∀ f ∈ findingsOn a p .handlerFlag, f.topic = .handlerFlag := by
    intro f member
    obtain ⟨d, -, inside⟩ := List.mem_flatMap.mp member
    obtain ⟨flag, -, rfl⟩ := List.mem_map.mp inside
    exact topic_flagFinding flag
  rw [tableFindings_tableOutput, List.filter_append, List.filter_append,
    filter_topic unreadable wanted, filter_topic handlers wanted, List.filter_flatMap]
  simp only [filter_bindingParts]
  cases wanted
  case bodyFlag =>
    simpa [findingsOn, among] using
      flatMap_if (fun d => (standing a p.table d).isWritten) (bodyFlags a p.table) p.declarations
  case rejection =>
    have rejected := flatMap_if (fun d => standing a p.table d == .flagged)
      (fun d => [rejection a p.table d]) p.declarations
    rw [← List.map_eq_flatMap] at rejected
    simpa [findingsOn, among] using rejected
  all_goals simp [findingsOn]

/-! ### In the report -/

/-- All findings about a table are made in one way. -/
theorem exists_of_mem_tableFindings {f : Finding}
    (member : f ∈ tableFindings a p (tableOutput a p).value) : ∃ d message,
      f = flagFinding a p.table d message ∨
        f = (flagFinding a p.table d message).quoting d.text := by
  rw [tableFindings_tableOutput, List.mem_append, List.mem_append] at member
  rcases member with (unreadable | handler) | bound
  · obtain ⟨d, -, rfl⟩ := List.mem_map.mp unreadable
    exact ⟨d, _, .inr rfl⟩
  · obtain ⟨d, -, inside⟩ := List.mem_flatMap.mp handler
    obtain ⟨flag, -, rfl⟩ := List.mem_map.mp inside
    exact ⟨d, _, .inl rfl⟩
  · obtain ⟨d, -, inside⟩ := List.mem_flatMap.mp bound
    rcases List.mem_append.mp inside with body | rejected
    · split at body
      · obtain ⟨flag, -, rfl⟩ := List.mem_map.mp body
        exact ⟨d, _, .inl rfl⟩
      · cases body
    · split at rejected
      · rw [List.mem_singleton.mp rejected]
        exact ⟨d, _, .inr rfl⟩
      · cases rejected

theorem origin_of_mem_tableFindings {f : Finding}
    (member : f ∈ tableFindings a p (tableOutput a p).value) : f.origin = p.table.key := by
  obtain ⟨d, message, rfl | rfl⟩ := exists_of_mem_tableFindings member <;> rfl

theorem severity_of_mem_tableFindings {f : Finding}
    (member : f ∈ tableFindings a p (tableOutput a p).value) : f.severity = .warning := by
  obtain ⟨d, message, rfl | rfl⟩ := exists_of_mem_tableFindings member <;> rfl

/-- What belongs to one of several things is found again by a mark that tells them apart. -/
theorem filter_flatMap_mark {α β : Type} {part : α → List β} {mark : β → String} (key : α → String)
    {l : List α} {a : α} (member : a ∈ l) (distinct : (l.map key).Nodup)
    (marked : ∀ b, ∀ x ∈ part b, mark x = key b) :
    (l.flatMap part).filter (mark · == key a) = part a := by
  have own (b : α) : (part b).filter (mark · == key a) = if key b = key a then part b else [] := by
    split
    · rename_i same
      exact List.filter_eq_self.mpr fun x inside => by simp [marked b x inside, same]
    · rename_i differs
      exact List.filter_eq_nil_iff.mpr fun x inside => by simp [marked b x inside, differs]
  induction l with
  | nil => cases member
  | cons b r ih =>
    rw [List.map_cons, List.nodup_cons] at distinct
    rw [List.flatMap_cons, List.filter_append, own]
    rcases List.mem_cons.mp member with rfl | member
    · have others : (r.flatMap part).filter (mark · == key a) = [] := by
        rw [List.filter_flatMap, List.flatMap_eq_nil_iff]
        intro c inside
        rw [own, if_neg]
        exact fun same => distinct.1 (same ▸ List.mem_map_of_mem inside)
      rw [if_pos rfl, others, List.append_nil]
    · have differs : key b ≠ key a := fun same =>
        distinct.1 (same ▸ List.mem_map_of_mem member)
      rw [if_neg differs, List.nil_append, ih member distinct.2]

theorem key_injective : Function.Injective Table.key := by
  intro s t same
  cases s <;> cases t <;> first | rfl | exact absurd same (by decide)

variable {tables : List ParsedTable} {c : Hook.Catalogue} {records : List RecordShape}
  {report : Report}

/-- All files and the whole report, from what is made of each table. -/
theorem value_assemble : (assemble a tables c records report).value =
    (outputFiles a.scriptNamespace (tables.map fun p => (p.table, (tableOutput a p).value)) c
        records,
      { report.pushAll (tables.flatMap (fun p => tableFindings a p (tableOutput a p).value) ++
          (missingEntries c).map (missingFinding a)) with
        tables := report.tables ++ tables.map fun p => (tableOutput a p).value.summary
        hooks := some (summarizeHooks c report.hooks) }) := by
  have paired : tables.zip (tables.map fun p => (tableOutput a p).value) =
      tables.map fun p => (p, (tableOutput a p).value) := by
    simpa using List.zip_map' (f := id) (g := fun p => (tableOutput a p).value) (l := tables)
  simp only [assemble, Logged.value_bind, Logged.value_pure, Logged.value_forEach, paired,
    List.zip_map', List.flatMap_map, List.map_map, Function.comp_def]

/-- What a report says about a table after a run is what it said before, and the findings about the
table. -/
theorem findings_assemble_of_mem (a : AssemblySettings) (c : Hook.Catalogue)
    (records : List RecordShape) (report : Report) (member : p ∈ tables)
    (distinct : (tables.map (·.table)).Nodup) :
    (assemble a tables c records report).value.2.findings.filter (·.origin == p.table.key) =
      report.findings.filter (·.origin == p.table.key) ++
        tableFindings a p (tableOutput a p).value := by
  have keys : (tables.map (·.table.key)).Nodup := by
    have mapped := List.Nodup.map key_injective distinct
    rwa [List.map_map] at mapped
  have hooks :
      ((missingEntries c).map (missingFinding a)).filter (·.origin == p.table.key) = [] := by
    refine List.filter_eq_nil_iff.mpr fun f inside => ?_
    obtain ⟨e, -, rfl⟩ := List.mem_map.mp inside
    have apart : ∀ table : Table, ("ham" == table.key) = false := by
      intro table
      cases table <;> decide
    simpa [missingFinding] using apart p.table
  rw [value_assemble]
  simp only [Report.findings_pushAll, List.filter_append, hooks, List.append_nil]
  congr 1
  exact filter_flatMap_mark (fun q : ParsedTable => q.table.key) member keys
    fun q f inside => origin_of_mem_tableFindings inside

end Output

end ScriptGlue
