import ScriptGlue.Proofs.Glue.Flags
import ScriptGlue.Proofs.Output.Findings
import ScriptGlue.Proofs.Table.Quoting

/-!
# The callable surface

Which functions scripts can call is said in four places: the code of the bindings, the list that
installs them, the types that scripts see and the remarks on what is missing. All four follow from
the standing of each declaration, and so do the counts and findings in the report.
-/
namespace ScriptGlue

open Code

namespace Declaration

/-- What follows the name of a function in the list that installs bindings. -/
def installedEntry (table : Table) (d : Declaration) : String :=
  s!"\x7b \"{d.scriptName}\", {d.apiSymbol table} \x7d"

def failedRemark (g : GlueSettings) (table : Table) (d : Declaration) : String :=
  let text := Text.trim d.text
  if d.isUnparsable then s!"// FAILED (unparsable): {text}"
  else s!"// FAILED ({d.unmappedReason g table}): {text}"

/-! ### On one line -/

/-- A type without a mapping is that of a parameter or of the result. -/
theorem mem_flags_callBody {table : Table} {d : Declaration} {f : Flag}
    (member : f ∈ (d.callBody table).value.2) (unknown : f.isUnknownType = true) :
    (∃ p ∈ d.fixed, f = .unknownType p.name p.type) ∨ f = .unknownType "return" d.returnType := by
  obtain ⟨call, flags⟩ := d.flags_callBody table
  rw [flags, List.mem_append, List.mem_flatMap] at member
  rcases member with ⟨p, listed, inside⟩ | result
  · left
    refine ⟨p, listed, ?_⟩
    rw [flags_callArg] at inside
    split at inside
    · exact Mapping.Conversion.eq_of_mem_flags inside unknown
    · cases inside
  · right
    unfold outcome at result
    split at result
    · cases result
    · split at result
      · cases result
      · rw [Logged.value_bind, Logged.value_bind, Mapping.Conversion.value_note] at result
        exact Mapping.Conversion.eq_of_mem_flags result unknown

variable {g : GlueSettings} {table : Table} {d : Declaration}

theorem isUnbroken_unmappedReason (line : d.OneLine) (quotable : d.Quotable) :
    Text.IsUnbroken (d.unmappedReason g table).toList := by
  have marks : Text.IsUnbroken "unmapped type: ".toList ∧ Text.IsUnbroken ", ".toList ∧
      Text.IsUnbroken "unknown type ".toList ∧ Text.IsUnbroken " (".toList ∧
      Text.IsUnbroken ")".toList ∧ Text.IsUnbroken "return".toList := by
    decide
  have message {arg type : String} (name : Text.IsUnbroken arg.toList)
      (spelled : Text.IsUnbroken type.toList) :
      Text.IsUnbroken (Flag.unknownType arg type).message.toList := by
    have whole : (Flag.unknownType arg type).message =
        "unknown type " ++ type ++ " (" ++ arg ++ ")" := rfl
    simp only [whole, String.toList_append]
    exact (((marks.2.2.1.append spelled).append marks.2.2.2.1).append name).append marks.2.2.2.2.1
  have whole : d.unmappedReason g table =
      "unmapped type: " ++ Binding.unknownTypes (d.bindingFlags g table) := rfl
  rw [whole, String.toList_append, Binding.unknownTypes]
  refine marks.1.append (Text.IsUnbroken.intercalate marks.2.1 fun l member => ?_)
  obtain ⟨f, kept, rfl⟩ := List.mem_map.mp member
  obtain ⟨inFlags, unknown⟩ := List.mem_filter.mp kept
  rw [bindingFlags] at inFlags
  split at inFlags
  · cases inFlags
  · rcases mem_flags_callBody inFlags unknown with ⟨p, listed, rfl⟩ | rfl
    · exact message (quotable.names p listed) (quotable.types p listed)
    · exact message marks.2.2.2.2.2 line.returnType

theorem isWholeLine_failedRemark (line : d.OneLine) (quotable : d.Quotable) :
    Text.IsWholeLine (d.failedRemark g table).toList := by
  have marks : Text.IsUnbroken "// FAILED (unparsable): ".toList ∧
      Text.IsUnbroken "// FAILED (".toList ∧ Text.IsUnbroken "): ".toList := by
    decide
  unfold failedRemark
  split
  · exact Text.isWholeLine_append_trim marks.1 quotable.text
  · refine Text.isWholeLine_append_trim ?_ quotable.text
    simp only [String.toList_append]
    exact (marks.2.1.append (isUnbroken_unmappedReason line quotable)).append marks.2.2

theorem isUnbroken_installedEntry (line : d.OneLine) :
    Text.IsUnbroken (d.installedEntry table).toList := by
  have marks : Text.IsUnbroken "\x7b \"".toList ∧ Text.IsUnbroken "\", ".toList ∧
      Text.IsUnbroken " \x7d".toList ∧ Text.IsUnbroken "sf_".toList ∧
      Text.IsUnbroken "_".toList := by
    decide
  have key : Text.IsUnbroken table.key.toList := by cases table <;> decide
  have name : Text.IsUnbroken d.scriptName.toList :=
    Text.isUnbroken_camelCase line.unbroken_bareName
  have symbol : Text.IsUnbroken (d.apiSymbol table).toList := by
    have whole : d.apiSymbol table = "sf_" ++ table.key ++ "_" ++ d.name := rfl
    simp only [whole, String.toList_append]
    exact ((marks.2.2.2.1.append key).append marks.2.2.2.2).append line.unbroken_name
  have whole : d.installedEntry table =
      "\x7b \"" ++ d.scriptName ++ "\", " ++ d.apiSymbol table ++ " \x7d" := rfl
  simp only [whole, String.toList_append]
  exact (((marks.1.append name).append marks.2.1).append symbol).append marks.2.2.1

end Declaration

namespace Output

open Declaration

variable (a : AssemblySettings) (p : ParsedTable)

/-! ### What is picked from bindings -/

theorem definitions_bindings : (bindings a p).value.filterMap (·.definition) =
    (among a p (·.isWritten)).map (·.bindingBody a.glue p.table) :=
  filterMap_bindings rfl fun _ _ binds => binds.definition

def installedEntries : List String := (among a p (· == .installed)).map (·.installedEntry p.table)

/-- What is told of the bindings that scripts can use is told of the declarations that are
installed. -/
theorem ready_bindings {β : Type} {show_ : Binding → β} {shown : Declaration → β}
    (each : ∀ d b, BindsAs a p.table d b → show_ b = shown d) :
    ((bindings a p).value.filter (·.status == .ready)).map show_ =
      (among a p (· == .installed)).map shown := by
  rw [← List.filterMap_eq_map, List.filterMap_filter]
  refine filterMap_bindings rfl fun d b binds => ?_
  have same : (b.status == .ready) = (standing a p.table d == .installed) := by
    rw [Bool.eq_iff_iff, beq_iff_eq, beq_iff_eq, binds.ready]
  rw [same, Function.comp_apply, each d b binds]

theorem items_installer : (installer p.table (bindings a p).value).items =
    (installedEntries a p).map fun e => ⟨e, none⟩ := by
  rw [installedEntries, List.map_map]
  refine ready_bindings a p fun d b binds => ?_
  rw [Binding.entry, binds.scriptName, binds.symbol]
  rfl

theorem typings_bindings : (bindingsSource a p (bindings a p).value).typings =
    (among a p (· == .installed)).map (·.apiTyping a.glue p.table) :=
  ready_bindings a p fun _ _ binds => by rw [binds.declaration]

theorem failures_bindings : (bindings a p).value.filterMap failureLine? =
    (among a p (·.isFailed)).map (·.failedRemark a.glue p.table) := by
  refine filterMap_bindings rfl fun d b binds => ?_
  rw [failureLine?, binds.declaration]
  cases status : b.status with
  | ready => simp [binds.ready.mp status, Standing.isFailed]
  | flagged reason =>
    obtain ⟨stands, rfl⟩ := (binds.flagged reason).mp status
    have bound : standing a p.table d ≠ .excluded := by simp [stands]
    have readable : d.isUnparsable = false := by
      rw [isUnparsable_of_standing bound, stands]
      rfl
    simp [stands, Standing.isFailed, failedRemark, readable]
  | unparsable =>
    have stands := binds.unparsable.mp status
    have bound : standing a p.table d ≠ .excluded := by simp [stands]
    have unparsable : d.isUnparsable = true := by
      rw [isUnparsable_of_standing bound, stands]
      rfl
    simp [stands, Standing.isFailed, failedRemark, unparsable]

/-! ### The file -/

/-- What stands before the first binding. -/
def surfaceHead (table : Table) : List String :=
  fileHead bindingIncludes ++ [table.globalDeclaration, ""]

/-- The bindings, each with an empty line behind it. -/
def bodyTexts : List String :=
  (among a p (·.isWritten)).flatMap fun d =>
    (d.bindingBody a.glue p.table).shown Layout.defaultUnit ++ [""]

def installerHead (table : Table) : String :=
  s!"static std::pair<std::string, v8::FunctionCallback> {table.installerSymbol}[] = \x7b"

def installerLines : List String :=
  installerHead p.table :: (ListDef.rows (installedEntries a p)).map ("  " ++ ·) ++ ["\x7d;"]

def installLines (table : Table) : List String :=
  (installFunction table).shown Layout.defaultUnit

/-- The remarks at the end, after an empty line if there are any. -/
def failureLines : List String :=
  let failed := (among a p (·.isFailed)).map (·.failedRemark a.glue p.table)
  if failed.isEmpty then [] else "" :: failed

theorem installedEntry_ne_empty (table : Table) (d : Declaration) :
    d.installedEntry table ≠ "" := by
  have whole : d.installedEntry table =
      "\x7b \"" ++ d.scriptName ++ "\", " ++ d.apiSymbol table ++ " \x7d" := rfl
  rw [whole]
  simp

theorem shows_installer : Layout.Shows (installer p.table (bindings a p).value).layout
    (installerLines a p) := by
  have filled : ∀ e ∈ installedEntries a p, e ≠ "" := by
    intro e member
    obtain ⟨d, -, rfl⟩ := List.mem_map.mp member
    exact installedEntry_ne_empty p.table d
  have head (table : Table) :
      (installer table (bindings a p).value).head ++ " =" ++ " \x7b" = installerHead table := by
    cases table <;> rfl
  have lines := ListDef.shows_layout (items_installer a p)
  rwa [Layout.blockLines, indented_rows filled, head] at lines

/-- The bindings are laid out with the lines of their definitions. -/
theorem shows_bodies : Layout.Shows
    ((bindings a p).value.flatMap fun b =>
      b.definition.toList.flatMap (·.layout ++ [Layout.blank]))
    (bodyTexts a p) := by
  have whole : ((bindings a p).value.flatMap fun b =>
      b.definition.toList.flatMap (·.layout ++ [Layout.blank])) =
        (among a p (·.isWritten)).flatMap fun d =>
          (d.bindingBody a.glue p.table).layout ++ [Layout.blank] := by
    rw [← List.flatMap_assoc, ← List.filterMap_eq_flatMap_toList, definitions_bindings,
      List.flatMap_map]
  rw [whole]
  exact Layout.shows_flatMap _ fun d _ =>
    (d.bindingBody a.glue p.table).shows_layout.append (Layout.shows_ofLines [""])

theorem source_bindingsSource : (bindingsSource a p (bindings a p).value).source =
    Text.unlines (surfaceHead p.table ++ bodyTexts a p ++ installerLines a p ++ [""] ++
      installLines p.table ++ failureLines a p) := by
  have head : Layout.Shows (.line banner :: includes bindingIncludes ++
      [Layout.blank, .line p.table.globalDeclaration, Layout.blank]) (surfaceHead p.table) := by
    have parts := (shows_fileHead bindingIncludes).append
      (Layout.shows_ofLines [p.table.globalDeclaration, ""])
    rwa [List.append_assoc] at parts
  have tail : Layout.Shows (if ((bindings a p).value.filterMap failureLine?).isEmpty then []
      else Layout.blank :: ((bindings a p).value.filterMap failureLine?).map .line)
      (failureLines a p) := by
    rw [failures_bindings, failureLines]
    split
    · exact Layout.shows_ofLines []
    · exact Layout.shows_ofLines ("" :: _)
  exact (((((head.append (shows_bodies a p)).append (shows_installer a p)).append
    (Layout.shows_ofLines [""])).append (installFunction p.table).shows_layout).append tail).render

/-! ### The file again by its lines -/

theorem isUnbroken_installerSymbol (table : Table) :
    Text.IsUnbroken table.installerSymbol.toList := by
  cases table
  case dll => exact .of_chars rfl (by decide)
  case engine => exact .of_chars rfl (by decide)

theorem unbroken_installLines (table : Table) :
    ∀ l ∈ installLines table, Text.IsUnbroken l.toList := by
  have signature : Text.IsUnbroken (installFunction table).signature.toList := by
    have whole : (installFunction table).signature =
        "v8::Local<v8::ObjectTemplate> " ++ table.functionRegistrar ++
          "(v8::Isolate* isolate)" := rfl
    have registrar : Text.IsUnbroken table.functionRegistrar.toList := by
      cases table
      case dll => exact .of_chars rfl (by decide)
      case engine => exact .of_chars rfl (by decide)
    rw [whole, String.toList_append, String.toList_append]
    exact .append (.append (.of_chars rfl (by decide)) registrar) (.of_chars rfl (by decide))
  have loop : Text.IsUnbroken (s!"for (auto &routine : {table.installerSymbol}) \x7b").toList := by
    have whole : s!"for (auto &routine : {table.installerSymbol}) \x7b" =
        "for (auto &routine : " ++ table.installerSymbol ++ ") \x7b" := rfl
    rw [whole, String.toList_append, String.toList_append]
    exact .append (.append (.of_chars rfl (by decide)) (isUnbroken_installerSymbol table))
      (.of_chars rfl (by decide))
  refine FunctionDef.isUnbroken_shown rfl signature fun l member => ?_
  simp only [installFunction, List.mem_cons, List.not_mem_nil, or_false] at member
  rcases member with rfl | rfl | rfl | rfl | rfl | rfl
  · exact .of_chars rfl (by decide)
  · exact loop
  · rw [String.toList_append, String.toList_append]
    exact .append (.append (.of_chars rfl (by decide)) (.of_chars rfl (by decide)))
      (.of_chars rfl (by decide))
  · exact .of_chars rfl (by decide)
  · exact .of_chars rfl (by decide)
  · exact .of_chars rfl (by decide)

section

variable {p}

theorem unbroken_installerLines (oneLine : ∀ d ∈ p.declarations, d.OneLine) :
    ∀ l ∈ installerLines a p, Text.IsUnbroken l.toList := by
  have marks : Text.IsUnbroken "  ".toList ∧ Text.IsUnbroken "\x7d;".toList := by decide
  have head (table : Table) : Text.IsUnbroken (installerHead table).toList := by
    have whole : installerHead table = "static std::pair<std::string, v8::FunctionCallback> " ++
        table.installerSymbol ++ "[] = \x7b" := rfl
    rw [whole, String.toList_append, String.toList_append]
    exact .append (.append (.of_chars rfl (by decide)) (isUnbroken_installerSymbol table))
      (.of_chars rfl (by decide))
  have entry : ∀ e ∈ installedEntries a p, Text.IsUnbroken e.toList := by
    intro e member
    obtain ⟨d, listed, rfl⟩ := List.mem_map.mp member
    exact isUnbroken_installedEntry (oneLine d (List.mem_filter.mp listed).1)
  intro l member
  rw [installerLines, List.mem_append, List.mem_cons, List.mem_singleton] at member
  rcases member with (rfl | inside) | rfl
  · exact head p.table
  · obtain ⟨r, among, rfl⟩ := List.mem_map.mp inside
    rw [String.toList_append]
    exact marks.1.append (unbroken_rows entry r among)
  · exact marks.2

theorem isWholeLine_failureLines (oneLine : ∀ d ∈ p.declarations, d.OneLine)
    (quotable : ∀ d ∈ p.declarations, d.Quotable) :
    ∀ l ∈ failureLines a p, Text.IsWholeLine l.toList := by
  intro l member
  rw [failureLines] at member
  split at member
  · cases member
  · rcases List.mem_cons.mp member with rfl | inside
    · exact Text.IsUnbroken.isWholeLine (fun c none => absurd none List.not_mem_nil)
    · obtain ⟨d, failed, rfl⟩ := List.mem_map.mp inside
      have listed := (List.mem_filter.mp failed).1
      exact isWholeLine_failedRemark (oneLine d listed) (quotable d listed)

end

/-! ### Counts -/

/-- How the counts of a table follow from the standings of its declarations. -/
structure Counted (s : TableSummary) : Prop where
  declared : s.declared = p.declarations.length
  parsed : s.declared = s.parsed + s.unparsable
  excluded : s.excluded = (among a p (· == .excluded)).length
  functions : s.functions = (among a p (· == .installed)).length
  flagged : s.flagged = (among a p (· == .flagged)).length
  /-- Nothing is lost and nothing counts twice. -/
  total : s.declared =
    s.excluded + s.functions + s.flagged + (among a p (· == .unparsable)).length

theorem counted_tableOutput : Counted a p (tableOutput a p).value.summary := by
  have excluded : p.declarations.countP (isExcluded a) = (among a p (· == .excluded)).length := by
    rw [List.countP_eq_length_filter, among]
    congr 1
    refine List.filter_congr fun d _ => ?_
    rw [Bool.eq_iff_iff, beq_iff_eq, ← not_iff_not, Bool.not_eq_true, ← standing_ne_excluded_iff]
  have functions : (bindings a p).value.countP (·.status == .ready) =
      (among a p (· == .installed)).length :=
    countP_bindings rfl fun d b binds => by
      rw [Bool.eq_iff_iff, beq_iff_eq, beq_iff_eq, binds.ready]
  have flagged : (bindings a p).value.countP isFlagged = (among a p (· == .flagged)).length := by
    refine countP_bindings rfl fun d b binds => ?_
    rw [isFlagged]
    cases status : b.status with
    | ready => simp [binds.ready.mp status]
    | flagged reason => simp [((binds.flagged reason).mp status).1]
    | unparsable => simp [binds.unparsable.mp status]
  rw [value_tableOutput]
  constructor
  case declared => rfl
  case parsed =>
    have fewer : p.unparsable.length ≤ p.declarations.length := List.length_filter_le _ _
    exact (Nat.sub_add_cancel fewer).symm
  case excluded => exact excluded
  case functions => exact functions
  case flagged => exact flagged
  case total =>
    have whole := length_among (a := a) (p := p)
    rwa [← excluded, ← functions, ← flagged] at whole

/-! ### The whole surface -/

/-- What the code of the bindings of a table, the list that installs them, the types that scripts
see, the remarks, the counts and the findings have to do with each other. -/
structure SurfaceAgrees : Prop where
  /-- Every declaration has one standing, on which its binding depends. -/
  bound : List.Forall₂ (BindsAs a p.table) (among a p (· != .excluded)) (bindings a p).value
  installed : (installer p.table (bindings a p).value).items =
    (among a p (· == .installed)).map fun d => ⟨d.installedEntry p.table, none⟩
  typings : (tableOutput a p).value.bindings.typings =
    (among a p (· == .installed)).map (·.apiTyping a.glue p.table)
  /-- The list and the types name the same functions, place by place. -/
  paired : List.Forall₂
    (fun item (signature : TypedSignature) => ∃ symbol : String,
      item.text = s!"\x7b \"{signature.name}\", sf_{symbol} \x7d")
    (installer p.table (bindings a p).value).items (tableOutput a p).value.bindings.typings
  /-- There is code for those bindings that are installed or flagged. -/
  source : (tableOutput a p).value.bindings.source =
    Text.unlines (surfaceHead p.table ++ bodyTexts a p ++ installerLines a p ++ [""] ++
      installLines p.table ++ failureLines a p)
  /-- The list stands in the file behind the code, and the remarks stand at the end. -/
  file : Text.lines (tableOutput a p).value.bindings.source =
    Text.lines (Text.unlines (surfaceHead p.table ++ bodyTexts a p)) ++ installerLines a p ++
      "" :: installLines p.table ++ failureLines a p
  counted : Counted a p (tableOutput a p).value.summary
  findings (wanted : Topic) : (tableFindings a p (tableOutput a p).value).filter
    (·.topic == wanted) = findingsOn a p wanted
  /-- The flags of handlers are the same in both phases. -/
  phases (phase : Phase) (d : Declaration) :
    handlerFlags a p.table phase d = handlerFlags a p.table .base d
  /-- All of this reaches the files and the report of a run. -/
  reported (tables : List ParsedTable) (c : Hook.Catalogue) (records : List RecordShape)
    (report : Report) : p ∈ tables → (tables.map (·.table)).Nodup →
    let (files, after) := (assemble a tables c records report).value
    ⟨.native, p.table.functionsFile, (tableOutput a p).value.bindings.source⟩ ∈ files ∧
      ⟨.typings, p.table.typingsFile, surfaceText a.scriptNamespace p.table
        (tableOutput a p).value.bindings.typings⟩ ∈ files ∧
      after.tables = report.tables ++ tables.map (fun q => (tableOutput a q).value.summary) ∧
      after.findings.filter (·.origin == p.table.key) =
        report.findings.filter (·.origin == p.table.key) ++
          tableFindings a p (tableOutput a p).value

theorem functionsFile_mem {scriptNamespace : String} {tables : List (Table × TableOutput)}
    {c : Hook.Catalogue} {records : List RecordShape} {table : Table} {out : TableOutput}
    (member : (table, out) ∈ tables) : ⟨.native, table.functionsFile, out.bindings.source⟩ ∈
      outputFiles scriptNamespace tables c records :=
  List.mem_append_left _ (List.mem_append_left _ (List.mem_append_left _
    (List.mem_flatMap_of_mem member (List.mem_cons_of_mem _ List.mem_cons_self))))

theorem typingsFile_mem {scriptNamespace : String} {tables : List (Table × TableOutput)}
    {c : Hook.Catalogue} {records : List RecordShape} {table : Table} {out : TableOutput}
    (member : (table, out) ∈ tables) :
    ⟨.typings, table.typingsFile, surfaceText scriptNamespace table out.bindings.typings⟩ ∈
      outputFiles scriptNamespace tables c records :=
  List.mem_append_left _ (List.mem_append_right _ (List.mem_map.mpr ⟨_, member, rfl⟩))

/-- What scripts can call is what is declared to them, and every declaration of a table that has
been read is accounted for. -/
theorem surface_agree {header : String} {table : Table} {logged : Logged ParsedTable}
    (found : ParsedTable.ofHeader header table = .ok logged) (a : AssemblySettings) :
    SurfaceAgrees a logged.value := by
  obtain ⟨-, oneLine⟩ := ParsedTable.oneLine_ofHeader found
  have quotable := ParsedTable.quotable_ofHeader found
  generalize logged.value = p at oneLine quotable
  have items : (installer p.table (bindings a p).value).items =
      (among a p (· == .installed)).map fun d => ⟨d.installedEntry p.table, none⟩ := by
    rw [items_installer, installedEntries, List.map_map]
    rfl
  have typings : (tableOutput a p).value.bindings.typings =
      (among a p (· == .installed)).map (·.apiTyping a.glue p.table) := by
    rw [value_tableOutput]
    exact typings_bindings a p
  have source : (tableOutput a p).value.bindings.source =
      Text.unlines (surfaceHead p.table ++ bodyTexts a p ++ installerLines a p ++ [""] ++
        installLines p.table ++ failureLines a p) := by
    rw [value_tableOutput]
    exact source_bindingsSource a p
  constructor
  case bound =>
    have kept : boundDeclarations a p = among a p (· != .excluded) := by
      refine List.filter_congr fun d _ => ?_
      rw [Bool.eq_iff_iff, bne_iff_ne, standing_ne_excluded_iff, Bool.not_eq_true']
    rw [bindings, Logged.value_forEach, ← kept, List.forall₂_map_right_iff, List.forall₂_same]
    intro d member
    have bound : isExcluded a d = false := by simpa using (List.mem_filter.mp member).2
    exact bindsAs_binding bound
  case installed => exact items
  case typings => exact typings
  case paired =>
    rw [items, typings, List.forall₂_map_left_iff, List.forall₂_map_right_iff, List.forall₂_same]
    refine fun d _ => ⟨p.table.key ++ "_" ++ d.name, ?_⟩
    rw [← String.toList_inj]
    change ("\x7b \"" ++ d.scriptName ++ "\", " ++ ("sf_" ++ p.table.key ++ "_" ++ d.name) ++
      " \x7d").toList =
        ("\x7b \"" ++ d.scriptName ++ "\", sf_" ++ (p.table.key ++ "_" ++ d.name) ++ " \x7d").toList
    simp
  case source => exact source
  case file =>
    have listed := Text.lines_unlines (unbroken_installerLines a oneLine)
    have installs := Text.lines_unlines (unbroken_installLines p.table)
    have failed := Text.lines_unlines_of_whole (isWholeLine_failureLines a oneLine quotable)
    have blank : Text.lines (Text.unlines [""]) = [""] := Text.lines_unlines (by decide)
    rw [source]
    simp only [Text.lines_unlines_append, listed, installs, failed, blank]
    simp only [List.append_assoc, List.cons_append, List.nil_append]
  case counted => exact counted_tableOutput a p
  case findings => exact filter_tableFindings a p
  case phases =>
    intro phase d
    rw [handlerFlags, flags_eventSlot, ← handlerFlags]
  case reported =>
    intro tables c records report member distinct
    have made := findings_assemble_of_mem a c records report member distinct
    rw [value_assemble] at made ⊢
    refine ⟨?_, ?_, rfl, made⟩
    · exact functionsFile_mem (List.mem_map_of_mem member)
    · exact typingsFile_mem (List.mem_map_of_mem member)

def standingsHeader : String :=
  "struct \x7b\nvoid (*pfnRun)(int);\nvoid (*pfnOdd)(odd_t);\n?\nint (*pfnOld)();\n" ++
    "\x7d DLL_FUNCTIONS;"

def standingsSettings : AssemblySettings where
  glue := { custom := fun _ _ => none }
  scriptNamespace := "nodemod"
  exclude := ["Old"]

theorem surface_agree_standings : ∃ logged,
    ParsedTable.ofHeader standingsHeader .dll = .ok logged ∧
      logged.value.declarations.map (standing standingsSettings logged.value.table) =
        [.installed, .flagged, .unparsable, .excluded] ∧
      SurfaceAgrees standingsSettings logged.value := by
  have standings : (ParsedTable.ofHeader standingsHeader .dll).toOption.map
      (fun logged => logged.value.declarations.map
        (standing standingsSettings logged.value.table)) =
      some [.installed, .flagged, .unparsable, .excluded] := by decide +kernel
  cases found : ParsedTable.ofHeader standingsHeader .dll with
  | error fault =>
    rw [found] at standings
    cases standings
  | ok logged =>
    rw [found] at standings
    exact ⟨logged, rfl, Option.some.inj standings, surface_agree found standingsSettings⟩

end Output

end ScriptGlue
