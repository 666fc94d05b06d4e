import ScriptGlue.Proofs.Disk.Path
import ScriptGlue.Proofs.Output.Findings
import ScriptGlue.Proofs.Run.Steps

/-!
# All or nothing

A run writes nothing before everything has been made. So it leaves no trace if it stops on the way,
nothing but its report if that has errors or if no more was asked for, and otherwise every file.
-/
namespace ScriptGlue.Run

open FileMap Output

variable {fm : FileMap} {o : RunOptions} {s : Settings} {i : Inputs} {records : List RecordShape}

/-! ### What has been made -/

/-- The names of all files, in the order in which they are written. -/
def fileNames : List String :=
  Table.all.flatMap (fun t => [t.eventsFile, t.functionsFile]) ++
    [detoursFile, enumsFile, eventsFile, recordsFile] ++ Table.all.map (·.typingsFile) ++
      [hooksFile, indexFile]

theorem tables_of_readFrom (read : i.ReadFrom fm s) : i.tables.map (·.table) = Table.all := by
  obtain ⟨_, _, _, dll, engine, -, -, -, dllRead, engineRead, -, both⟩ := read
  rw [both, List.map_cons, List.map_singleton, (ParsedTable.oneLine_ofHeader dllRead).1,
    (ParsedTable.oneLine_ofHeader engineRead).1]
  rfl

/-- The files have the same names in the same order, whatever was read. -/
theorem names_outputFiles (scriptNamespace : String) (tables : List (Table × TableOutput))
    (c : Hook.Catalogue) (records : List RecordShape) :
    (outputFiles scriptNamespace tables c records).map (·.name) =
      (tables.map (·.1)).flatMap (fun t => [t.eventsFile, t.functionsFile]) ++
        [detoursFile, enumsFile, eventsFile, recordsFile] ++
          (tables.map (·.1)).map (·.typingsFile) ++ [hooksFile, indexFile] := by
  simp [outputFiles, List.map_flatMap, List.flatMap_map, Function.comp_def]

theorem names_madeFrom (read : i.ReadFrom fm s) (records : List RecordShape) :
    (madeFrom s i records).1.map (·.name) = fileNames := by
  rw [madeFrom, value_assemble, names_outputFiles, List.map_map]
  exact congrArg (fun tables : List Table =>
    tables.flatMap (fun t => [t.eventsFile, t.functionsFile]) ++
      [detoursFile, enumsFile, eventsFile, recordsFile] ++ tables.map (·.typingsFile) ++
        [hooksFile, indexFile]) (tables_of_readFrom read)

/-- No two files have one path, not even in one directory. -/
theorem nodup_paths {files : List OutputFile} (names : files.map (·.name) = fileNames)
    (nativeDir typingsDir : String) : (files.map (·.path nativeDir typingsDir)).Nodup := by
  have plain : ∀ name ∈ fileNames, '/' ∉ name.toList := by decide +kernel
  have distinct : fileNames.Nodup := by decide
  refine List.Nodup.of_map Path.lastName ?_
  have last : (files.map (·.path nativeDir typingsDir)).map Path.lastName = fileNames := by
    rw [← names, List.map_map]
    refine List.map_congr_left fun f member => ?_
    have short := plain f.name (names ▸ List.mem_map_of_mem member)
    rw [Function.comp_apply, OutputFile.path]
    split <;> exact Path.lastName_join short _
  rwa [last]

/-- The report opens with what was found while reading, and goes on table by table. -/
theorem findings_madeFrom : (madeFrom s i records).2.findings =
    openingFindings s i ++
      (i.tables.flatMap (fun p =>
          tableFindings (assemblyOf s) p (tableOutput (assemblyOf s) p).value) ++
        (missingEntries i.hooks).map (missingFinding (assemblyOf s))) := by
  rw [madeFrom, value_assemble]
  simp only [Report.findings_pushAll]
  rfl

theorem tables_madeFrom : (madeFrom s i records).2.tables =
    i.tables.map fun p => (tableOutput (assemblyOf s) p).value.summary := by
  rw [madeFrom, value_assemble]
  simp only [Report.tables_pushAll]
  rfl

/-- The report of a run is a success unless it has errors. -/
theorem isSettled_madeFrom : (madeFrom s i records).2.IsSettled := by
  rw [madeFrom, value_assemble]
  exact (Report.isSettled_empty.pushAll _).pushAll _

/-- A policy stops a run if it is strict and there is an issue. -/
theorem value_apply (policy : Hook.MismatchPolicy) (issues : List Hook.Issue) :
    (policy.apply issues).value = .ok () ∧ (policy = .warn ∨ issues = []) ∨
      (∃ fault, (policy.apply issues).value = .error fault) ∧ policy = .error ∧ issues ≠ [] := by
  cases policy with
  | warn => exact .inl ⟨rfl, .inl rfl⟩
  | error =>
    cases issues with
    | nil => exact .inl ⟨rfl, .inr rfl⟩
    | cons first r => exact .inr ⟨⟨_, rfl⟩, rfl, List.cons_ne_nil first r⟩

/-- Only a strict policy refuses hooks, and only if something is wrong with them. -/
theorem exists_error_openingFindings :
    (∃ f ∈ openingFindings s i, f.severity = .error) ↔
      s.mismatch = .error ∧ i.hooks.issues ≠ [] := by
  constructor
  · rintro ⟨f, member, error⟩
    rw [openingFindings, List.mem_append, List.mem_append] at member
    rcases member with (skipped | issue) | refusal
    · obtain ⟨p, -, inside⟩ := List.mem_flatMap.mp skipped
      obtain ⟨l, -, rfl⟩ := List.mem_map.mp inside
      cases error
    · obtain ⟨issue, -, rfl⟩ := List.mem_map.mp issue
      cases error
    · rcases value_apply s.mismatch i.hooks.issues with ⟨accepted, -⟩ | ⟨-, refused⟩
      · rw [accepted] at refusal
        cases refusal
      · exact refused
  · rintro ⟨strict, wrong⟩
    rcases value_apply s.mismatch i.hooks.issues with ⟨-, lax | fine⟩ | ⟨⟨fault, refused⟩, -⟩
    · rw [strict] at lax
      cases lax
    · exact absurd fine wrong
    · refine ⟨Finding.ofFault fault "ham" (fileName s.hookTable), ?_, rfl⟩
      rw [openingFindings, refused]
      exact List.mem_append_right _ List.mem_cons_self

/-- Nothing that is found while files are made is an error. -/
theorem hasErrors_madeFrom (records : List RecordShape) :
    (madeFrom s i records).2.hasErrors = true ↔ s.mismatch = .error ∧ i.hooks.issues ≠ [] := by
  rw [Report.hasErrors_iff, findings_madeFrom, ← exists_error_openingFindings]
  constructor
  · rintro ⟨f, member, error⟩
    rcases List.mem_append.mp member with opening | later
    · exact ⟨f, opening, error⟩
    · rcases List.mem_append.mp later with found | missing
      · obtain ⟨p, -, inside⟩ := List.mem_flatMap.mp found
        rw [severity_of_mem_tableFindings inside] at error
        cases error
      · obtain ⟨e, -, rfl⟩ := List.mem_map.mp missing
        cases error
  · rintro ⟨f, member, error⟩
    exact ⟨f, List.mem_append_left _ member, error⟩

theorem unparsable_madeFrom (records : List RecordShape) :
    (madeFrom s i records).2.unparsable = 0 ↔ ∀ p ∈ i.tables, p.unparsable = [] := by
  rw [Report.unparsable_eq_zero_iff, tables_madeFrom, List.forall_mem_map]
  refine forall₂_congr fun p _ => ?_
  rw [value_tableOutput]
  exact List.length_eq_zero_iff

/-! ### What is left behind -/

def reportEffects (report : Report) (reportPath : Option String) : List Effect :=
  reportPath.toList.map (.write · report.text)

def outputEffects (s : Settings) (files : List OutputFile) : List Effect :=
  dirEffects s.nativeOut ++ dirEffects s.typingsOut ++
    files.map fun f => .write (f.path s.nativeOut s.typingsOut) f.contents

/-- Writing a report says nothing and stops nothing. -/
theorem takes_writeReport (report : Report) (reportPath : Option String) (fm : FileMap) :
    Takes (writeReport disk report reportPath) fm (.ok ()) []
      (fm.after (reportEffects report reportPath)) := by
  cases reportPath with
  | none => exact Takes.pure ()
  | some path =>
    have written : Takes (onDisk (fun problem => s!"writing report {path}: {problem.message}")
        (disk.write path report.text)) fm (.ok ()) [] (fm.step (.write path report.text)) :=
      Takes.onDisk rfl
    exact written.bind (Takes.note _)

theorem takes_writeFiles (s : Settings) (files : List OutputFile) (fm : FileMap) :
    Takes (writeFiles disk s files) fm (.ok ()) [] (fm.after (outputEffects s files)) := by
  have dirs (dir : String) (fm : FileMap) : Takes (onDisk (ioMessage dir) (disk.makeDirs dir)) fm
      (.ok ()) [] (fm.after (dirEffects dir)) := Takes.onDisk (makeDirs_disk dir fm)
  have each (f : OutputFile) (fm : FileMap) : Takes (do
      let path := f.path s.nativeOut s.typingsOut
      onDisk (ioMessage path) (disk.write path f.contents)
      note (Logged.info s!"wrote {path} ({f.contents.utf8ByteSize} bytes)")) fm (.ok ()) []
        (fm.after [.write (f.path s.nativeOut s.typingsOut) f.contents]) := by
    have written : Takes (onDisk (ioMessage (f.path s.nativeOut s.typingsOut))
        (disk.write (f.path s.nativeOut s.typingsOut) f.contents)) fm (.ok ()) []
          (fm.step (.write (f.path s.nativeOut s.typingsOut) f.contents)) := Takes.onDisk rfl
    exact written.bind (Takes.note _)
  have made := Takes.forM_silent dirs [s.nativeOut, s.typingsOut] fm
  have written := Takes.forM_silent each files
    (fm.after ([s.nativeOut, s.typingsOut].flatMap dirEffects))
  have whole : Takes (writeFiles disk s files) fm _ _ _ := Takes.bind made written
  rw [← after_append] at whole
  simpa [outputEffects, List.map_eq_flatMap] using whole

theorem takes_saySummary (report : Report) (fm : FileMap) :
    ∃ said, Takes (saySummary report) fm (.ok ()) said fm :=
  ⟨_, Takes.forM_say _ fm⟩

/-- How a full run ends once everything has been made. -/
def conclude {m : Type → Type} [Monad m] (disk : Disk m) (s : Settings) (files : List OutputFile)
    (report : Report) (reportPath : Option String) (dryRun : Bool) : RunM m Bool := do
  if report.hasErrors then
    writeReport disk report reportPath
    throw (.message s!"{report.count .error} error(s); no files written")
  let paths := files.map (·.path s.nativeOut s.typingsOut)
  if dryRun then paths.forM fun path => say s!"  [dry-run] {path}"
  else writeFiles disk s files
  writeReport disk { report with files := paths } reportPath
  let done := if dryRun then "planned" else "written"
  say s!"\n✅ {paths.length} files {done}"
  return true

/-- A full run is its opening followed by the conclusion that depends on the report. -/
theorem generate_eq {m : Type → Type} [Monad m] (disk : Disk m) (o : RunOptions)
    (reportPath : Option String) (dryRun : Bool) : generate disk o reportPath dryRun = (do
      say programLine
      let s ← loadSettings disk o
      let (files, report) ← prepare disk s
      saySummary report
      conclude disk s files report reportPath dryRun) := rfl

def plannedLine (path : String) : String := s!"  [dry-run] {path}"

/-- The last line of a full run. -/
def doneLine (count : Nat) (done : String) : String := s!"\n✅ {count} files {done}"

def listing (s : Settings) (files : List OutputFile) (report : Report) : Report :=
  { report with files := files.map (·.path s.nativeOut s.typingsOut) }

section

variable {files : List OutputFile} {report : Report} {said : List String}

/-- Errors leave the report. -/
theorem takes_conclude_refused (errors : report.hasErrors = true) (reportPath : Option String)
    (dryRun : Bool) : ∃ e, Takes (conclude disk s files report reportPath dryRun) fm (.error e) []
      (fm.after (reportEffects report reportPath)) := by
  unfold conclude
  dsimp only
  rw [if_pos errors]
  exact ⟨_, (takes_writeReport report reportPath fm).bind ((Takes.throw _).stop _)⟩

/-- A dry run lists the files and leaves the report. -/
theorem takes_conclude_dry (clean : report.hasErrors = false) (reportPath : Option String) :
    Takes (conclude disk s files report reportPath true) fm (.ok true)
      ((listing s files report).files.map plannedLine ++ [doneLine files.length "planned"])
      (fm.after (reportEffects (listing s files report) reportPath)) := by
  have listed : Takes ((listing s files report).files.forM fun path => say (plannedLine path)) fm
      (.ok ()) ((listing s files report).files.map plannedLine) fm := by
    have each := Takes.forM (fun path => [plannedLine path]) (fun _ => [])
      (fun path fm => Takes.say (plannedLine path)) (listing s files report).files fm
    rwa [← List.map_eq_flatMap, List.flatMap_eq_nil_iff.mpr fun _ _ => rfl] at each
  have done : Takes (do say (doneLine files.length "planned"); return true)
      (fm.after (reportEffects (listing s files report) reportPath)) (.ok true)
      [doneLine files.length "planned"] _ := (Takes.say _).bind (Takes.pure true)
  unfold conclude
  dsimp only
  rw [if_neg (by simp [clean]), if_pos rfl, List.length_map]
  exact listed.bind ((takes_writeReport (listing s files report) reportPath fm).bind done)

/-- A full run leaves the files and the report. -/
theorem takes_conclude (clean : report.hasErrors = false) (reportPath : Option String) :
    Takes (conclude disk s files report reportPath false) fm (.ok true)
      [doneLine files.length "written"]
      (fm.after (outputEffects s files ++ reportEffects (listing s files report) reportPath)) := by
  have done (fm : FileMap) : Takes (do say (doneLine files.length "written"); return true) fm
      (.ok true) [doneLine files.length "written"] fm := (Takes.say _).bind (Takes.pure true)
  unfold conclude
  dsimp only
  rw [if_neg (by simp [clean]), if_neg (by simp), after_append, List.length_map]
  exact (takes_writeFiles s files fm).bind
    ((takes_writeReport (listing s files report) reportPath _).bind (done _))

variable (loaded : Takes (loadSettings disk o) fm (.ok s) [] fm)
  (prepared : Takes (prepare disk s) fm (.ok (files, report)) said fm)
include loaded prepared

/-- A full run ends as it concludes. -/
theorem takes_generate {reportPath : Option String} {dryRun : Bool} {r : Except RunFailure Bool}
    {tail : List String} {fm' : FileMap}
    (ends : Takes (conclude disk s files report reportPath dryRun) fm r tail fm') :
    ∃ before, Takes (generate disk o reportPath dryRun) fm r (before ++ tail) fm' := by
  obtain ⟨sum, summary⟩ := takes_saySummary report fm
  have whole : Takes (generate disk o reportPath dryRun) fm r
      ([programLine] ++ ([] ++ (said ++ (sum ++ tail)))) fm' := by
    rw [generate_eq]
    exact (Takes.say _).bind (loaded.bind (prepared.bind (summary.bind ends)))
  exact ⟨[programLine] ++ ([] ++ (said ++ sum)), by simpa using whole⟩

/-- A check leaves the report. -/
theorem takes_check (reportPath : Option String) :
    ∃ said, Takes (check disk o reportPath) fm
      (.ok (decide (report.unparsable = 0) && !report.hasErrors)) said
      (fm.after (reportEffects report reportPath)) := by
  obtain ⟨sum, summary⟩ := takes_saySummary report fm
  have verdict (fm : FileMap) : ∃ said, Takes (do
      if 0 < report.unparsable || report.hasErrors then
        complain
          s!"❌ {report.unparsable} unparsable declaration(s), {report.count .error} error(s)"
        return false
      else
        say "✅ No errors found"
        return true) fm (.ok (decide (report.unparsable = 0) && !report.hasErrors)) said fm := by
    by_cases faulty : (decide (0 < report.unparsable) || report.hasErrors) = true
    · have verdict : (decide (report.unparsable = 0) && !report.hasErrors) = false := by
        rw [Bool.or_eq_true, decide_eq_true_iff] at faulty
        rw [Bool.and_eq_false_iff, decide_eq_false_iff_not, Bool.not_eq_false']
        exact faulty.imp_left Nat.pos_iff_ne_zero.mp
      rw [if_pos faulty, verdict]
      exact ⟨_, (Takes.complain _).bind (Takes.pure false)⟩
    · have verdict : (decide (report.unparsable = 0) && !report.hasErrors) = true := by
        rw [Bool.or_eq_true, decide_eq_true_iff, not_or, Nat.not_lt, Nat.le_zero] at faulty
        simpa using faulty
      rw [if_neg faulty, verdict]
      exact ⟨_, (Takes.say _).bind (Takes.pure true)⟩
  obtain ⟨last, ends⟩ := verdict (fm.after (reportEffects report reportPath))
  have whole : Takes (check disk o reportPath) fm _ _ _ :=
    loaded.bind (prepared.bind (summary.bind ((takes_writeReport report reportPath fm).bind ends)))
  exact ⟨_, whole⟩

end

/-! ### The file system afterwards -/

section

variable {files : List OutputFile} {report : Report}
  (distinct : (files.map (·.path s.nativeOut s.typingsOut)).Nodup)

theorem writesTo_dirEffects (path dir : String) :
    ∀ e ∈ dirEffects dir, writesTo path e = false := by
  intro e member
  rw [dirEffects] at member
  split at member
  · cases member
  · rw [List.mem_singleton.mp member]
    rfl

/-- A report is written nowhere but to its path. -/
theorem writesTo_reportEffects {path : String} {reportPath : Option String}
    (other : some path ≠ reportPath) :
    ∀ e ∈ reportEffects report reportPath, writesTo path e = false := by
  intro e member
  obtain ⟨p, given, rfl⟩ := List.mem_map.mp member
  have differs : p ≠ path := by
    rintro rfl
    exact other (Option.mem_toList.mp given).symm
  simpa [writesTo] using differs

include distinct in
/-- Every file has its contents, unless the report was asked for in its place. -/
theorem text_outputEffects {f : OutputFile} (member : f ∈ files) {reportPath : Option String}
    (other : some (f.path s.nativeOut s.typingsOut) ≠ reportPath) (fm : FileMap) :
    (fm.after (outputEffects s files ++ reportEffects report reportPath)).text
      (f.path s.nativeOut s.typingsOut) = .ok f.contents := by
  obtain ⟨before, later, rfl⟩ := List.append_of_mem member
  rw [List.map_append, List.map_cons, List.nodup_append, List.nodup_cons] at distinct
  have whole : outputEffects s (before ++ f :: later) ++ reportEffects report reportPath =
      (dirEffects s.nativeOut ++ dirEffects s.typingsOut ++
        before.map fun g => .write (g.path s.nativeOut s.typingsOut) g.contents) ++
          .write (f.path s.nativeOut s.typingsOut) f.contents ::
            (later.map (fun g => .write (g.path s.nativeOut s.typingsOut) g.contents) ++
              reportEffects report reportPath) := by
    simp [outputEffects]
  -- all paths differ, so no later write is to this one
  rw [whole]
  refine text_after_write fm _ _ _ _ fun e written => ?_
  rcases List.mem_append.mp written with file | reported
  · obtain ⟨g, inside, rfl⟩ := List.mem_map.mp file
    have differs : g.path s.nativeOut s.typingsOut ≠ f.path s.nativeOut s.typingsOut := by
      intro same
      exact distinct.2.1.1 (same ▸ List.mem_map_of_mem inside)
    simpa [writesTo] using differs
  · exact writesTo_reportEffects other e reported

/-- Nothing else is touched. -/
theorem text_outputEffects_of_not_mem {path : String}
    (elsewhere : path ∉ files.map (·.path s.nativeOut s.typingsOut)) {reportPath : Option String}
    (other : some path ≠ reportPath) (fm : FileMap) :
    (fm.after (outputEffects s files ++ reportEffects report reportPath)).text path =
      fm.text path := by
  refine text_after_of_not_writesTo fm fun e done => ?_
  rcases List.mem_append.mp done with output | reported
  · rw [outputEffects, List.mem_append, List.mem_append] at output
    rcases output with (native | typings) | file
    · exact writesTo_dirEffects path _ e native
    · exact writesTo_dirEffects path _ e typings
    · obtain ⟨g, inside, rfl⟩ := List.mem_map.mp file
      have differs : g.path s.nativeOut s.typingsOut ≠ path := by
        rintro rfl
        exact elsewhere (List.mem_map_of_mem inside)
      simpa [writesTo] using differs
  · exact writesTo_reportEffects other e reported

end

/-! ### The whole run -/

/-- The commands that make files, or would. -/
def commands (reportPath : Option String) : List Command :=
  [.generate reportPath false, .generate reportPath true, .check reportPath]

/-- How the commands end once everything has been made. -/
structure Concludes (fm : FileMap) (o : RunOptions) (reportPath : Option String) (s : Settings)
    (i : Inputs) (files : List OutputFile) (report : Report) : Prop where
  /-- Only a strict policy makes errors, of whatever is wrong with the hooks. -/
  strict : report.hasErrors = true ↔ s.mismatch = .error ∧ i.hooks.issues ≠ []
  settled : report.IsSettled
  refused : report.hasErrors = true → ∀ dryRun, ∃ e said,
    Takes (generate disk o reportPath dryRun) fm (.error e) said
      (fm.after (reportEffects report reportPath))
  /-- A dry run lists the files and writes its report. -/
  planned : report.hasErrors = false → ∃ before,
    Takes (generate disk o reportPath true) fm (.ok true)
      (before ++ ((listing s files report).files.map plannedLine ++
        [doneLine files.length "planned"]))
      (fm.after (reportEffects (listing s files report) reportPath))
  /-- A full run writes the files, in order, and then its report. -/
  written : report.hasErrors = false → ∃ said,
    Takes (generate disk o reportPath false) fm (.ok true) said
      (fm.after (outputEffects s files ++ reportEffects (listing s files report) reportPath))
  /-- A check writes its report. -/
  checked : ∃ verdict said, Takes (check disk o reportPath) fm (.ok verdict) said
    (fm.after (reportEffects report reportPath))
  distinct : (listing s files report).files.Nodup
  /-- So every file has its contents in the end. -/
  landed : ∀ f ∈ files, some (f.path s.nativeOut s.typingsOut) ≠ reportPath →
    (fm.after (outputEffects s files ++ reportEffects (listing s files report) reportPath)).text
      (f.path s.nativeOut s.typingsOut) = .ok f.contents
  /-- And nothing else has changed. -/
  untouched : ∀ path ∉ (listing s files report).files, some path ≠ reportPath →
    (fm.after (outputEffects s files ++ reportEffects (listing s files report) reportPath)).text
      path = fm.text path

/-- A command ends well. -/
def Succeeds (x : RunM (StateM FileMap) Bool) (fm : FileMap) : Prop :=
  ∃ said fm', Takes x fm (.ok true) said fm'

/-- What a run leaves behind on a file system that refuses no write. -/
structure AllOrNothing (fm : FileMap) (o : RunOptions) (reportPath : Option String) : Prop where
  /-- A report says that it is a success as long as it has no errors. -/
  pushes (fs : List Finding) : (Report.empty.pushAll fs).IsSettled
  loads : ∃ r, Takes (loadSettings disk o) fm r [] fm
  /-- Without settings nothing is done. -/
  unsettled (e : RunFailure) : Takes (loadSettings disk o) fm (.error e) [] fm →
    ∀ cmd ∈ commands reportPath, Fails (command disk o cmd) fm
  /-- Neither is anything if an input cannot be read or makes no sense. -/
  unread (s : Settings) : Takes (loadSettings disk o) fm (.ok s) [] fm →
    (¬ ∃ i : Inputs, i.ReadFrom fm s) → ∀ cmd ∈ commands reportPath, Fails (command disk o cmd) fm
  completed (s : Settings) (i : Inputs) : Takes (loadSettings disk o) fm (.ok s) [] fm →
    i.ReadFrom fm s → ∃ files report said,
      Takes (prepare disk s) fm (.ok (files, report)) said fm ∧
        files.map (·.name) = fileNames ∧ Concludes fm o reportPath s i files report
  /-- A check is a dry run that minds declarations which could not be read. -/
  checks : Succeeds (check disk o reportPath) fm ↔
    Succeeds (generate disk o reportPath true) fm ∧
      ∀ (s : Settings) (i : Inputs), Takes (loadSettings disk o) fm (.ok s) [] fm →
        i.ReadFrom fm s → ∀ p ∈ i.tables, p.unparsable = []

theorem Fails.not_succeeds {x : RunM (StateM FileMap) Bool} (fails : Fails x fm) :
    ¬ Succeeds x fm := by
  rintro ⟨said, fm', ends⟩
  obtain ⟨e, said', stops⟩ := fails
  cases ends.unique stops

/-- What stops reading the settings or preparing the files stops every command that makes files. -/
theorem fails_command {reportPath : Option String} {cmd : Command}
    (member : cmd ∈ commands reportPath)
    (stops : Fails (loadSettings disk o) fm ∨
      ∃ s, Takes (loadSettings disk o) fm (.ok s) [] fm ∧ Fails (prepare disk s) fm) :
    Fails (command disk o cmd) fm := by
  have generates (dryRun : Bool) : Fails (generate disk o reportPath dryRun) fm := by
    rw [generate_eq]
    refine (Takes.say programLine).fails ?_
    rcases stops with early | ⟨s, loaded, late⟩
    · exact early.bind _
    · exact loaded.fails (late.bind _)
  have checks : Fails (check disk o reportPath) fm := by
    unfold check
    rcases stops with early | ⟨s, loaded, late⟩
    · exact early.bind _
    · exact loaded.fails (late.bind _)
  simp only [commands, List.mem_cons, List.not_mem_nil, or_false] at member
  rcases member with rfl | rfl | rfl
  · exact generates false
  · exact generates true
  · exact checks

section

variable (loaded : Takes (loadSettings disk o) fm (.ok s) [] fm) (read : i.ReadFrom fm s)
  (reportPath : Option String)
include loaded read

/-- A dry run goes well unless the policy refuses the hooks. -/
theorem succeeds_dry_iff : Succeeds (generate disk o reportPath true) fm ↔
    ¬ (s.mismatch = .error ∧ i.hooks.issues ≠ []) := by
  obtain ⟨records, said, prepared⟩ := takes_prepare read
  rw [← hasErrors_madeFrom records, Bool.not_eq_true]
  constructor
  · rintro ⟨said', fm', ends⟩
    rw [Bool.eq_false_iff]
    intro errors
    obtain ⟨e, refused⟩ := takes_conclude_refused errors reportPath true
    obtain ⟨before, stops⟩ := takes_generate loaded prepared refused
    cases ends.unique stops
  · intro clean
    obtain ⟨before, ends⟩ :=
      takes_generate loaded prepared (takes_conclude_dry clean reportPath)
    exact ⟨_, _, ends⟩

/-- A check also wants every declaration to have been read. -/
theorem succeeds_check_iff : Succeeds (check disk o reportPath) fm ↔
    (∀ p ∈ i.tables, p.unparsable = []) ∧ ¬ (s.mismatch = .error ∧ i.hooks.issues ≠ []) := by
  obtain ⟨records, said, prepared⟩ := takes_prepare read
  obtain ⟨said', ends⟩ := takes_check loaded prepared reportPath
  rw [← hasErrors_madeFrom records, ← unparsable_madeFrom records]
  constructor
  · rintro ⟨_, _, well⟩
    have verdict := Except.ok.inj (ends.unique well)
    simpa using verdict
  · rintro ⟨parsed, clean⟩
    rw [Bool.not_eq_true] at clean
    rw [parsed, clean] at ends
    exact ⟨said', _, ends⟩

end

/-- A check succeeds if a dry run does and every declaration could be read. -/
theorem succeeds_check_iff_dry (reportPath : Option String) :
    Succeeds (check disk o reportPath) fm ↔ Succeeds (generate disk o reportPath true) fm ∧
      ∀ (s : Settings) (i : Inputs), Takes (loadSettings disk o) fm (.ok s) [] fm →
        i.ReadFrom fm s → ∀ p ∈ i.tables, p.unparsable = [] := by
  -- a check and a dry run stop early for the same reasons
  have checking : Command.check reportPath ∈ commands reportPath := by simp [commands]
  have planning : Command.generate reportPath true ∈ commands reportPath := by simp [commands]
  have neither (stops : Fails (loadSettings disk o) fm ∨
      ∃ s, Takes (loadSettings disk o) fm (.ok s) [] fm ∧ Fails (prepare disk s) fm) :
      ¬ Succeeds (check disk o reportPath) fm ∧ ¬ Succeeds (generate disk o reportPath true) fm :=
    ⟨(fails_command checking stops).not_succeeds, (fails_command planning stops).not_succeeds⟩
  obtain ⟨r | s, loaded⟩ := looks_loadSettings fm o
  · obtain ⟨noCheck, noRun⟩ := neither (.inl ⟨r, [], loaded⟩)
    exact ⟨fun well => absurd well noCheck, fun well => absurd well.1 noRun⟩
  · by_cases read : ∃ i : Inputs, i.ReadFrom fm s
    · obtain ⟨i, read⟩ := read
      rw [succeeds_dry_iff loaded read reportPath]
      constructor
      · intro well
        have parsed := (succeeds_check_iff loaded read reportPath).mp well
        exact ⟨parsed.2, fun s' i' loaded' read' =>
          ((succeeds_check_iff loaded' read' reportPath).mp well).1⟩
      · rintro ⟨lax, parsed⟩
        exact (succeeds_check_iff loaded read reportPath).mpr ⟨parsed s i loaded read, lax⟩
    · obtain ⟨noCheck, noRun⟩ := neither (.inr ⟨s, loaded, fails_prepare read⟩)
      exact ⟨fun well => absurd well noCheck, fun well => absurd well.1 noRun⟩

/-- A run is all or nothing. -/
theorem all_or_nothing (fm : FileMap) (o : RunOptions) (reportPath : Option String) :
    AllOrNothing fm o reportPath := by
  constructor
  case pushes => exact fun fs => Report.isSettled_empty.pushAll fs
  case loads => exact looks_loadSettings fm o
  case unsettled =>
    exact fun e stops cmd member => fails_command member (.inl ⟨e, [], stops⟩)
  case unread =>
    exact fun s loaded unread cmd member =>
      fails_command member (.inr ⟨s, loaded, fails_prepare unread⟩)
  case completed =>
    intro s i loaded read
    obtain ⟨records, said, prepared⟩ := takes_prepare read
    have names := names_madeFrom read records
    have distinct := nodup_paths names s.nativeOut s.typingsOut
    refine ⟨_, _, said, prepared, names, ?_⟩
    constructor
    case strict => exact hasErrors_madeFrom records
    case settled => exact isSettled_madeFrom
    case refused =>
      intro errors dryRun
      obtain ⟨e, ends⟩ := takes_conclude_refused errors reportPath dryRun
      obtain ⟨before, whole⟩ := takes_generate loaded prepared ends
      exact ⟨e, _, whole⟩
    case planned =>
      exact fun clean => takes_generate loaded prepared (takes_conclude_dry clean reportPath)
    case written =>
      intro clean
      obtain ⟨before, whole⟩ := takes_generate loaded prepared (takes_conclude clean reportPath)
      exact ⟨_, whole⟩
    case checked => exact ⟨_, takes_check loaded prepared reportPath⟩
    case distinct => exact distinct
    case landed => exact fun f member other => text_outputEffects distinct member other fm
    case untouched =>
      exact fun path elsewhere other => text_outputEffects_of_not_mem elsewhere other fm
  case checks => exact succeeds_check_iff_dry reportPath

/-- Inputs with one hook and no signature for it. -/
def bareFiles : FileMap where
  text path :=
    if path = "./eiface.h" then .ok "\x7b\x7d DLL_FUNCTIONS; \x7b\x7d enginefuncs_t;"
    else if path = "./ham.h" then .ok "enum HamType \x7b Ham_Spawn \x7d;"
    else if path = "./ham.cpp" then .ok "g_hamFunctions[] = \x7b \x7d;"
    else .error .notFound
  effects := []

def bareOptions (policy : Hook.MismatchPolicy) : RunOptions where
  overrides := {
    header := some "eiface.h"
    hookEnum := some "ham.h"
    hookTable := some "ham.cpp"
    mismatch := some policy }

def bareEffects (policy : Hook.MismatchPolicy) : List Effect :=
  ((generate disk (bareOptions policy) (some "report.json") false).run.run {} bareFiles).2.effects

/-- A strict run leaves its report. A lax one makes two directories and twelve files before it. -/
example : (bareEffects .error).length = 1 ∧ (bareEffects .warn).length = 15 := by decide +kernel

end ScriptGlue.Run
