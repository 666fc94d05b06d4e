import ScriptGlue.Proofs.Disk.FileMap
import ScriptGlue.Run

/-!
# Steps of a run

How a part of a run ends on a file system that refuses no write: with which result, and after which
effects. What has been said before makes no difference to either.
-/
namespace ScriptGlue.Run

open FileMap Output

/-- A part of a run comes to a result, says some lines and leaves a file system, whatever has been
said before. -/
def Takes {α : Type} (x : RunM (StateM FileMap) α) (fm : FileMap) (r : Except RunFailure α)
    (said : List String) (fm' : FileMap) : Prop :=
  ∀ c, ∃ c', x.run.run c fm = ((r, c'), fm') ∧ c'.out = said.reverse ++ c.out

/-- A part of a run stops it and leaves the file system as it is. -/
def Fails {α : Type} (x : RunM (StateM FileMap) α) (fm : FileMap) : Prop :=
  ∃ e said, Takes x fm (.error e) said fm

theorem bind_apply {σ α β : Type} (y : StateM σ α) (f : α → StateM σ β) (s : σ) :
    (y >>= f) s = f (y s).1 (y s).2 := rfl

/-- A run in two parts goes on from the console and the files that the first part leaves. -/
theorem run_bind {α β : Type} (x : RunM (StateM FileMap) α) (f : α → RunM (StateM FileMap) β)
    (c : Console) (fm : FileMap) : (x >>= f).run.run c fm =
      match x.run.run c fm with
      | ((.ok a, c'), fm') => (f a).run.run c' fm'
      | ((.error e, c'), fm') => ((.error e, c'), fm') := by
  rw [ExceptT.run_bind, StateT.run_bind, bind_apply]
  rcases x.run.run c fm with ⟨⟨r, c'⟩, fm'⟩
  cases r <;> rfl

section

variable {α β : Type} {x : RunM (StateM FileMap) α} {fm fm₁ fm₂ : FileMap}
  {said said' : List String}

namespace Takes

theorem pure (a : α) : Takes (Pure.pure a) fm (.ok a) [] fm := fun c => ⟨c, rfl, rfl⟩

theorem throw (e : RunFailure) :
    Takes (MonadExcept.throw e : RunM (StateM FileMap) α) fm (.error e) [] fm :=
  fun c => ⟨c, rfl, rfl⟩

/-- A part that goes well is followed by the next one. -/
theorem bind {a : α} {f : α → RunM (StateM FileMap) β} {r : Except RunFailure β}
    (first : Takes x fm (.ok a) said fm₁) (next : Takes (f a) fm₁ r said' fm₂) :
    Takes (x >>= f) fm r (said ++ said') fm₂ := by
  intro c
  obtain ⟨c₁, taken, out₁⟩ := first c
  obtain ⟨c₂, after, out₂⟩ := next c₁
  refine ⟨c₂, by rw [run_bind, taken, ← after], ?_⟩
  rw [out₂, out₁, List.reverse_append, List.append_assoc]

/-- A part that fails is the last one. -/
theorem stop {e : RunFailure} (first : Takes x fm (.error e) said fm₁)
    (f : α → RunM (StateM FileMap) β) : Takes (x >>= f) fm (.error e) said fm₁ := by
  intro c
  obtain ⟨c₁, taken, out₁⟩ := first c
  exact ⟨c₁, by rw [run_bind, taken], out₁⟩

theorem fails {a : α} {f : α → RunM (StateM FileMap) β} (first : Takes x fm (.ok a) said fm)
    (next : Fails (f a) fm) : Fails (x >>= f) fm := by
  obtain ⟨e, said', stops⟩ := next
  exact ⟨e, said ++ said', first.bind stops⟩

/-- A part of a run ends in one way. -/
theorem unique {r r' : Except RunFailure α} (one : Takes x fm r said fm₁)
    (other : Takes x fm r' said' fm₂) : r = r' := by
  obtain ⟨c₁, first, -⟩ := one {}
  obtain ⟨c₂, second, -⟩ := other {}
  rw [first] at second
  cases second
  rfl

theorem say (line : String) : Takes (Run.say line) fm (.ok ()) [line] fm :=
  fun _ => ⟨_, rfl, rfl⟩

theorem complain (line : String) : Takes (Run.complain line) fm (.ok ()) [] fm :=
  fun _ => ⟨_, rfl, rfl⟩

theorem note (l : Logged α) : Takes (Run.note l) fm (.ok l.value) [] fm := fun _ => ⟨_, rfl, rfl⟩

theorem quietly (y : StateM FileMap α) (fm : FileMap) :
    Takes (Run.quietly y) fm (.ok (y fm).1) [] (y fm).2 := fun _ => ⟨_, rfl, rfl⟩

theorem onDisk {describe : DiskProblem → String} {y : StateM FileMap (Except DiskProblem α)}
    {a : α} (done : y fm = (.ok a, fm₁)) : Takes (Run.onDisk describe y) fm (.ok a) [] fm₁ := by
  have called := quietly y fm
  rw [done] at called
  exact called.bind (pure a)

theorem orStop (context : String) (a : α) : Takes (Run.orStop context (.ok a)) fm (.ok a) [] fm :=
  pure a

/-- Parts that all go well are done one after the other. -/
theorem forM {f : α → RunM (StateM FileMap) Unit} (lines : α → List String)
    (effects : α → List Effect)
    (each : ∀ a fm, Takes (f a) fm (.ok ()) (lines a) (fm.after (effects a))) (l : List α)
    (fm : FileMap) :
    Takes (l.forM f) fm (.ok ()) (l.flatMap lines) (fm.after (l.flatMap effects)) := by
  induction l generalizing fm with
  | nil => exact pure ()
  | cons a r ih =>
    rw [List.flatMap_cons, List.flatMap_cons, after_append]
    exact (each a fm).bind (ih _)

/-- What is done silently for each member is done in order for all. -/
theorem forM_silent {f : α → RunM (StateM FileMap) Unit} {effects : α → List Effect}
    (each : ∀ a fm, Takes (f a) fm (.ok ()) [] (fm.after (effects a))) (l : List α)
    (fm : FileMap) : Takes (l.forM f) fm (.ok ()) [] (fm.after (l.flatMap effects)) := by
  have whole := forM (fun _ => []) effects each l fm
  rwa [List.flatMap_eq_nil_iff.mpr fun _ _ => rfl] at whole

theorem forM_say (l : List String) (fm : FileMap) : Takes (l.forM Run.say) fm (.ok ()) l fm := by
  have whole := forM (fun line => [line]) (fun _ => []) (fun line fm => say line) l fm
  rwa [List.flatMap_singleton', List.flatMap_eq_nil_iff.mpr fun _ _ => rfl] at whole

theorem mapM {f : α → RunM (StateM FileMap) β} (each : ∀ a, ∃ b, Takes (f a) fm (.ok b) [] fm)
    (l : List α) : ∃ bs, Takes (l.mapM f) fm (.ok bs) [] fm := by
  induction l with
  | nil => exact ⟨[], pure []⟩
  | cons a r ih =>
    obtain ⟨b, first⟩ := each a
    obtain ⟨bs, others⟩ := ih
    refine ⟨b :: bs, ?_⟩
    rw [List.mapM_cons]
    exact first.bind (others.bind (pure _))

end Takes

namespace Fails

theorem bind (fails : Fails x fm) (f : α → RunM (StateM FileMap) β) : Fails (x >>= f) fm := by
  obtain ⟨e, said, stops⟩ := fails
  exact ⟨e, said, stops.stop f⟩

theorem onDisk {describe : DiskProblem → String} {y : StateM FileMap (Except DiskProblem α)}
    {problem : DiskProblem} (refused : y fm = (.error problem, fm)) :
    Fails (Run.onDisk describe y) fm := by
  have called := Takes.quietly y fm
  rw [refused] at called
  exact ⟨_, _, called.bind (Takes.throw _)⟩

theorem orStop (context : String) (fault : Fault) :
    Fails (Run.orStop context (.error fault) : RunM (StateM FileMap) α) fm := by
  cases fault <;> exact ⟨_, _, Takes.throw _⟩

end Fails

/-- A part of a run that only looks: it says nothing and leaves the file system as it is. -/
def Looks {α : Type} (x : RunM (StateM FileMap) α) (fm : FileMap) : Prop :=
  ∃ r, Takes x fm r [] fm

namespace Looks

theorem bind {f : α → RunM (StateM FileMap) β} (first : Looks x fm) (next : ∀ a, Looks (f a) fm) :
    Looks (x >>= f) fm := by
  obtain ⟨r, taken⟩ := first
  cases r with
  | error e => exact ⟨_, taken.stop f⟩
  | ok a =>
    obtain ⟨r', after⟩ := next a
    exact ⟨r', taken.bind after⟩

theorem orStop (context : String) (r : Except Fault α) :
    Looks (Run.orStop context r : RunM (StateM FileMap) α) fm := by
  cases r with
  | ok a => exact ⟨_, Takes.orStop context a⟩
  | error fault => cases fault <;> exact ⟨_, Takes.throw _⟩

end Looks

end

/-! ### Reading -/

section

variable {fm : FileMap} {s : Settings}

theorem takes_readInput {what path text : String} (found : fm.text path = .ok text) :
    Takes (readInput disk what path) fm (.ok text) [] fm :=
  Takes.onDisk (by rw [← found]; rfl)

theorem fails_readInput {what path : String} {problem : DiskProblem}
    (missing : fm.text path = .error problem) : Fails (readInput disk what path) fm :=
  Fails.onDisk (by rw [← missing]; rfl)

def tableRead (p : ParsedTable) (table : Table) : String :=
  s!"  [✓] Parsed {table.structName} ({p.declarations.length} declarations)"

/-- A table that can be read is read with one line said about it. -/
theorem takes_readTable {header path : String} {table : Table} {logged : Logged ParsedTable}
    (found : ParsedTable.ofHeader header table = .ok logged) :
    Takes (readTable header path table) fm (.ok logged.value) [tableRead logged.value table]
      fm := by
  rw [readTable, found]
  exact (Takes.orStop _ logged).bind ((Takes.note logged).bind ((Takes.say _).bind (Takes.pure _)))

theorem fails_readTable {header path : String} {table : Table} {fault : Fault}
    (missing : ParsedTable.ofHeader header table = .error fault) :
    Fails (readTable header path table) fm := by
  rw [readTable, missing]
  exact (Fails.orStop _ fault).bind _

theorem takes_readHooks {enumSource tableSource : String} {hooks : Hook.Catalogue}
    (found : Hook.Catalogue.read enumSource tableSource = .ok hooks) (path : String)
    (fm : FileMap) :
    ∃ said, Takes (readHooks enumSource tableSource path) fm (.ok hooks) said fm := by
  rw [readHooks, found]
  exact ⟨_, (Takes.orStop _ hooks).bind ((Takes.say _).bind (Takes.pure _))⟩

theorem fails_readHooks {enumSource tableSource path : String} {fault : Fault}
    (missing : Hook.Catalogue.read enumSource tableSource = .error fault) :
    Fails (readHooks enumSource tableSource path) fm := by
  rw [readHooks, missing]
  exact (Fails.orStop _ fault).bind _

/-- A wrapper that cannot be read leaves its structure empty and stops nothing. -/
theorem takes_readRecord (fm : FileMap) (dir : Option String) (stem name : String) :
    ∃ shape, Takes (readRecord disk dir stem name) fm (.ok shape) [] fm := by
  cases dir with
  | none => exact ⟨_, Takes.pure _⟩
  | some dir =>
    have called := Takes.quietly (disk.read (Path.join dir s!"{stem}.cpp")) fm
    have looked : disk.read (Path.join dir s!"{stem}.cpp") fm =
        (fm.text (Path.join dir s!"{stem}.cpp"), fm) := rfl
    rw [looked] at called
    cases found : fm.text (Path.join dir s!"{stem}.cpp") with
    | ok source =>
      rw [found] at called
      exact ⟨_, called.bind (Takes.pure _)⟩
    | error problem =>
      rw [found] at called
      exact ⟨_, called.bind ((Takes.note _).bind (Takes.pure _))⟩

theorem takes_readRecords (fm : FileMap) (dir : Option String) :
    ∃ shapes, Takes (readRecords disk dir) fm (.ok shapes) [] fm := by
  obtain ⟨shapes, taken⟩ := Takes.mapM
    (fun (source : String × String) => takes_readRecord fm dir source.1 source.2)
    RecordShape.sources
  exact ⟨_, taken.bind (Takes.pure _)⟩

/-- Settings are read without a trace. -/
theorem looks_loadSettings (fm : FileMap) (o : RunOptions) : Looks (loadSettings disk o) fm := by
  have looked (path : String) : (readSettings disk path fm).2 = fm := by
    have found : disk.read path fm = (fm.text path, fm) := rfl
    rw [readSettings, bind_apply, found]
    cases fm.text path <;> rfl
  have rest (fromFile : Settings) : Looks (do
      orStop "" ((fromFile.merge o.overrides).resolve o.root).validate
      return (fromFile.merge o.overrides).resolve o.root) fm :=
    (Looks.orStop "" _).bind fun _ => ⟨_, Takes.pure _⟩
  unfold loadSettings
  dsimp only
  cases o.config with
  | none => exact Looks.bind ⟨_, Takes.pure _⟩ rest
  | some name =>
    have called := Takes.quietly (readSettings disk (Path.join o.root name)) fm
    rw [looked] at called
    exact Looks.bind ⟨_, called⟩ fun result => (Looks.orStop "" result).bind rest

end

/-! ### Making everything -/

structure Inputs where
  tables : List ParsedTable
  hooks : Hook.Catalogue

/-- All inputs are where the settings say, and make sense. -/
def Inputs.ReadFrom (i : Inputs) (fm : FileMap) (s : Settings) : Prop :=
  ∃ header hookEnum hookTable dll engine,
    fm.text s.header = .ok header ∧ fm.text s.hookEnum = .ok hookEnum ∧
      fm.text s.hookTable = .ok hookTable ∧
      ParsedTable.ofHeader header .dll = .ok dll ∧
      ParsedTable.ofHeader header .engine = .ok engine ∧
      Hook.Catalogue.read hookEnum hookTable = .ok i.hooks ∧
      i.tables = [dll.value, engine.value]

/-- What is found before anything is made. -/
def openingFindings (s : Settings) (i : Inputs) : List Finding :=
  i.tables.flatMap (fun p => p.skipped.map (skippedFinding p.table (fileName s.header))) ++
    i.hooks.issues.map (Finding.ofIssue · .warning (fileName s.hookTable)) ++
      match (s.mismatch.apply i.hooks.issues).value with
      | .ok () => []
      | .error fault => [Finding.ofFault fault "ham" (fileName s.hookTable)]

def assemblyOf (s : Settings) : AssemblySettings where
  glue := {
    custom := CustomRegistry.builtin.find?
    frameTick := s.frameTick
    scriptNamespace := s.scriptNamespace }
  scriptNamespace := s.scriptNamespace
  exclude := s.apiExclude
  headerName := fileName s.header
  hookTableName := fileName s.hookTable

def madeFrom (s : Settings) (i : Inputs) (records : List RecordShape) :
    List OutputFile × Report :=
  let (files, report) := (assemble (assemblyOf s) i.tables i.hooks records
    (Report.empty.pushAll (openingFindings s i))).value
  (files, { report with
    hooks := report.hooks.map fun h => { h with issues := i.hooks.issues.length } })

variable {fm : FileMap} {s : Settings} {i : Inputs}

/-- Both tables are read in turn. -/
theorem takes_readTables {header : String} {dll engine : Logged ParsedTable}
    (dllRead : ParsedTable.ofHeader header .dll = .ok dll)
    (engineRead : ParsedTable.ofHeader header .engine = .ok engine) (path : String)
    (fm : FileMap) :
    Takes (Table.all.mapM (readTable header path)) fm (.ok [dll.value, engine.value])
      [tableRead dll.value .dll, tableRead engine.value .engine] fm :=
  (takes_readTable dllRead).bind ((takes_readTable engineRead).bind (Takes.pure _))

/-- Inputs that can be read are made into files and a report. -/
theorem takes_prepare (read : i.ReadFrom fm s) :
    ∃ records said, Takes (prepare disk s) fm
      (.ok ((madeFrom s i records).1, (madeFrom s i records).2)) said fm := by
  obtain ⟨header, hookEnum, hookTable, dll, engine, headerText, enumText, tableText, dllRead,
    engineRead, hooksRead, both⟩ := read
  obtain ⟨records, recordsRead⟩ := takes_readRecords fm s.recordsDir
  obtain ⟨hooksSaid, hooks⟩ := takes_readHooks hooksRead s.hookEnum fm
  have tables := takes_readTables dllRead engineRead s.header fm
  refine ⟨records, ?_⟩
  rw [madeFrom, openingFindings, both]
  exact ⟨_, (takes_readInput headerText).bind <| (takes_readInput enumText).bind <|
    (takes_readInput tableText).bind <| tables.bind <| hooks.bind <|
      (Takes.note _).bind <| recordsRead.bind <| (Takes.note _).bind <|
        (Takes.say _).bind (Takes.pure _)⟩

/-- Whatever input is missing or makes no sense, nothing is made. -/
theorem fails_prepare (unread : ¬ ∃ i : Inputs, i.ReadFrom fm s) : Fails (prepare disk s) fm := by
  -- the inputs are read in this order, and the first that cannot be read stops the run
  unfold prepare
  rcases headerText : fm.text s.header with problem | header
  · exact (fails_readInput headerText).bind _
  refine (takes_readInput headerText).fails ?_
  rcases enumText : fm.text s.hookEnum with problem | hookEnum
  · exact (fails_readInput enumText).bind _
  refine (takes_readInput enumText).fails ?_
  rcases tableText : fm.text s.hookTable with problem | hookTable
  · exact (fails_readInput tableText).bind _
  refine (takes_readInput tableText).fails ?_
  rcases dllRead : ParsedTable.ofHeader header .dll with fault | dll
  · exact ((fails_readTable dllRead).bind _).bind _
  rcases engineRead : ParsedTable.ofHeader header .engine with fault | engine
  · exact ((takes_readTable dllRead).fails ((fails_readTable engineRead).bind _)).bind _
  have tables := takes_readTables dllRead engineRead s.header fm
  refine tables.fails ?_
  rcases hooksRead : Hook.Catalogue.read hookEnum hookTable with fault | hooks
  · exact (fails_readHooks hooksRead).bind _
  exact absurd ⟨⟨[dll.value, engine.value], hooks⟩, header, hookEnum, hookTable, dll, engine,
    headerText, enumText, tableText, dllRead, engineRead, hooksRead, rfl⟩ unread

end ScriptGlue.Run
