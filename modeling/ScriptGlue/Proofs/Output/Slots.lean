import ScriptGlue.Output.Assembly
import ScriptGlue.Proofs.Code.Rendering
import ScriptGlue.Proofs.Declaration.OneLine
import ScriptGlue.Proofs.Text.CaseMapping

/-!
# Slots of handlers

The engine calls handlers by their place in a table. Whether a declaration has a handler is decided
in four places: where its code is made, where the table is written, where its event is made known
and where the types of listeners are. They agree, and each place of the table belongs to the
declaration of that place.
-/
namespace ScriptGlue

open Code Output

namespace Declaration

/-- A declaration that could not be read and has no handler written by hand. -/
def isUnhandled (g : GlueSettings) (table : Table) (d : Declaration) : Bool :=
  d.isUnparsable && ((g.custom table d.name).bind (·.event)).isNone

def slotEntry (g : GlueSettings) (table : Table) (phase : Phase) (d : Declaration) : String :=
  if d.isUnhandled g table then "NULL" else d.eventSymbol table phase

def handlerStart (table : Table) (phase : Phase) (d : Declaration) : String :=
  (if d.isUnparsable then "void" else d.returnType) ++ " " ++ d.eventSymbol table phase ++ "("

variable (g : GlueSettings) (table : Table) (phase : Phase) (d : Declaration)

/-! ### One slot -/

/-- A slot is empty, or its handler has the names of its declaration. -/
theorem eventSlot_cases :
    (d.isUnhandled g table = true ∧
      (d.eventSlot g table phase).value = .empty (d.eventSymbol table phase)) ∨
    (d.isUnhandled g table = false ∧ ∃ h, (d.eventSlot g table phase).value = .handler h ∧
      h.symbol = d.eventSymbol table phase ∧ h.event = d.eventName table phase ∧
      h.returns = if d.isUnparsable then "void" else d.returnType) := by
  cases decision : d.isUnhandled g table with
  | true =>
    left
    rw [isUnhandled] at decision
    refine ⟨rfl, ?_⟩
    rw [eventSlot, if_pos decision]
    rfl
  | false =>
    right
    rw [isUnhandled] at decision
    refine ⟨rfl, ?_⟩
    rw [eventSlot, if_neg (by simp [decision])]
    exact ⟨_, rfl, rfl, rfl, rfl⟩

theorem entry_eventSlot : (d.eventSlot g table phase).value.entry = d.slotEntry g table phase := by
  rw [slotEntry]
  rcases d.eventSlot_cases g table phase with ⟨decision, slot⟩ | ⟨decision, h, slot, symbol, -⟩
  · rw [slot, decision]
    rfl
  · rw [slot, decision]
    exact symbol

theorem event_eventSlot :
    (d.eventSlot g table phase).value.handler?.map (·.event) =
      if d.isUnhandled g table then none else some (d.eventName table phase) := by
  rcases d.eventSlot_cases g table phase with ⟨decision, slot⟩ | ⟨decision, h, slot, -, event, -⟩
  · rw [slot, decision]
    rfl
  · rw [slot, decision]
    exact congrArg some event

theorem name_eventTyping? :
    (d.eventTyping? g table phase).map (·.name) =
      if d.isUnhandled g table then none else some (d.eventName table phase) := by
  rw [eventTyping?, isUnhandled]
  split <;> rfl

/-- No handler is called like an empty place. -/
theorem eventSymbol_ne_null : d.eventSymbol table phase ≠ "NULL" := by
  intro same
  have whole : (table.eventStem phase ++ "_" ++ d.name).toList = "NULL".toList :=
    congrArg String.toList same
  cases table <;> cases phase <;> simp [Table.eventStem] at whole

theorem isUnhandled_iff : d.isUnhandled g table = true ↔
    d.isUnparsable = true ∧ (g.custom table d.name).bind (·.event) = none := by
  rw [isUnhandled, Bool.and_eq_true, Option.isNone_iff_eq_none]

theorem slotEntry_eq_null_iff : d.slotEntry g table phase = "NULL" ↔
    d.isUnparsable = true ∧ (g.custom table d.name).bind (·.event) = none := by
  rw [slotEntry, ← isUnhandled_iff]
  split
  · rename_i unhandled
    exact iff_of_true rfl unhandled
  · rename_i handled
    exact iff_of_false (d.eventSymbol_ne_null table phase) handled

/-! ### On one line -/

theorem isUnbroken_eventStem : Text.IsUnbroken (table.eventStem phase).toList := by
  cases table <;> cases phase <;> decide

variable {d}

theorem slotEntry_ne_empty : d.slotEntry g table phase ≠ "" := by
  rw [slotEntry]
  split
  · decide
  · intro same
    have whole : (table.eventStem phase ++ "_" ++ d.name).toList = [] :=
      congrArg String.toList same
    simp at whole

theorem handlerStart_ne_empty : d.handlerStart table phase ≠ "" := by
  rw [handlerStart]
  simp

namespace OneLine

variable (line : d.OneLine)
include line

theorem unbroken_name : Text.IsUnbroken d.name.toList := by
  intro c member
  exact Text.isLineEnd_of_isIdentRest (isIdentRest_of_mem line.name member)

theorem unbroken_bareName : Text.IsUnbroken d.bareName.toList := by
  rw [bareName, Text.dropLead?]
  split
  · intro c member
    rw [Option.getD_some, String.toList_ofList] at member
    exact line.unbroken_name c (List.mem_of_mem_drop member)
  · exact line.unbroken_name

theorem unbroken_eventSymbol : Text.IsUnbroken (d.eventSymbol table phase).toList := by
  have bar : Text.IsUnbroken "_".toList := by decide
  have whole : d.eventSymbol table phase = table.eventStem phase ++ "_" ++ d.name := rfl
  rw [whole, String.toList_append, String.toList_append]
  exact ((isUnbroken_eventStem table phase).append bar).append line.unbroken_name

theorem unbroken_slotEntry : Text.IsUnbroken (d.slotEntry g table phase).toList := by
  rw [slotEntry]
  split
  · decide
  · exact line.unbroken_eventSymbol table phase

theorem unbroken_handlerStart : Text.IsUnbroken (d.handlerStart table phase).toList := by
  have mark : Text.IsUnbroken " ".toList ∧ Text.IsUnbroken "(".toList := by decide
  have type : Text.IsUnbroken (if d.isUnparsable then "void" else d.returnType).toList := by
    split
    · decide
    · exact line.returnType
  rw [handlerStart, String.toList_append, String.toList_append, String.toList_append]
  exact ((type.append mark.1).append (line.unbroken_eventSymbol table phase)).append mark.2

theorem unbroken_eventName : Text.IsUnbroken (d.eventName table phase).toList := by
  rw [eventName]
  refine Text.isUnbroken_camelCase ?_
  rw [String.toList_append]
  exact (isUnbroken_eventStem table phase).append line.unbroken_bareName

/-- The definition of a handler begins a line of its code. -/
theorem handlerStart_mem_code (decision : d.isUnhandled g table = false)
    (scriptNamespace : String) :
    ∃ more, d.handlerStart table phase ++ more ∈
      Text.lines ((d.eventSlot g table phase).value.code scriptNamespace) := by
  rcases d.eventSlot_cases g table phase with ⟨none, -⟩ | ⟨-, h, slot, symbol, -, returns⟩
  · rw [decision] at none
    cases none
  · rw [slot]
    have signature : (h.definition scriptNamespace).signature =
        d.handlerStart table phase ++ (h.params ++ ")") := by
      have spelled : (h.definition scriptNamespace).signature =
          h.returns ++ " " ++ h.symbol ++ "(" ++ h.params ++ ")" := rfl
      rw [spelled, symbol, returns, handlerStart, ← String.append_assoc]
    exact FunctionDef.signature_mem_lines rfl signature (handlerStart_ne_empty table phase)
      (line.unbroken_handlerStart table phase)

end OneLine

end Declaration

namespace Output

open Declaration

variable (g : GlueSettings) (p : ParsedTable) (phase : Phase)

/-- The events of the declarations that have a handler, in order. -/
def eventsOf : List String :=
  (p.declarations.filter (!·.isUnhandled g p.table)).map (·.eventName p.table phase)

def entriesOf : List String := p.declarations.map (·.slotEntry g p.table phase)

def tableLines : List String :=
  s!"{p.table.structName} {p.table.dispatchSymbol phase} = \x7b" ::
    (ListDef.rows (entriesOf g p phase)).map ("  " ++ ·) ++ ["\x7d;"]

def registrarLines : List String :=
  let line := fun event => s!"  event::register_event(\"{event}\", \"\");"
  [s!"void {p.table.eventRegistrar}()", "\x7b", "  // base"] ++
    (eventsOf g p .base).map line ++ ["  // post"] ++ (eventsOf g p .post).map line ++ ["\x7d"]

/-! ### All slots -/

theorem items_dispatchTable :
    (dispatchTable p.table phase (eventSlots g p phase).value).items =
      (entriesOf g p phase).map fun e => ⟨e, none⟩ := by
  rw [dispatchTable, eventSlots, Logged.value_forEach, entriesOf, List.map_map, List.map_map]
  refine List.map_congr_left fun d _ => ?_
  exact congrArg (ListedItem.mk · none) (d.entry_eventSlot g p.table phase)

/-- What is kept of the members that pass a test is found by filtering. -/
theorem filterMap_unless {α β : Type} {f : α → Option β} {skips : α → Bool} {name : α → β}
    (each : ∀ a, f a = if skips a then none else some (name a)) (l : List α) :
    l.filterMap f = (l.filter (!skips ·)).map name := by
  induction l with
  | nil => rfl
  | cons a r ih =>
    rw [List.filterMap_cons, each a, List.filter_cons, ih]
    cases skips a <;> rfl

theorem eventNames_eventSlots : eventNames (eventSlots g p phase).value = eventsOf g p phase := by
  rw [eventNames, eventSlots, Logged.value_forEach, List.filterMap_map]
  exact filterMap_unless (fun d => d.event_eventSlot g p.table phase) p.declarations

theorem names_eventTypings : (eventTypings g p phase).map (·.name) = eventsOf g p phase := by
  rw [eventTypings, List.map_filterMap]
  exact filterMap_unless (fun d => d.name_eventTyping? g p.table phase) p.declarations

/-! ### The file -/

/-- The lines of a phase before its table. -/
def phaseHead : List String :=
  phaseTitle phase :: (eventSlots g p phase).value.flatMap fun s =>
    Text.lines (s.code g.scriptNamespace) ++ [""]

theorem indented_rows {entries : List String} (filled : ∀ e ∈ entries, e ≠ "") :
    (ListDef.rows entries).map (Layout.indented Layout.defaultUnit 1) =
      (ListDef.rows entries).map ("  " ++ ·) := by
  refine List.map_congr_left fun row member => Layout.indented_one ?_
  rcases List.mem_append.mp member with inner | last
  · obtain ⟨e, -, rfl⟩ := List.mem_map.mp inner
    simp
  · exact filled row (List.mem_of_getLast? (Option.mem_toList.mp last))

theorem shows_dispatchTable : Layout.Shows
    (dispatchTable p.table phase (eventSlots g p phase).value).layout (tableLines g p phase) := by
  have filled : ∀ e ∈ entriesOf g p phase, e ≠ "" := by
    intro e member
    obtain ⟨d, -, rfl⟩ := List.mem_map.mp member
    exact slotEntry_ne_empty g p.table phase
  have head : (dispatchTable p.table phase (eventSlots g p phase).value).head ++ " =" ++ " \x7b" =
      s!"{p.table.structName} {p.table.dispatchSymbol phase} = \x7b" := by
    rw [String.append_assoc]
    rfl
  have lines := ListDef.shows_layout (items_dispatchTable g p phase)
  rwa [Layout.blockLines, indented_rows filled, head] at lines

theorem registration_ne_empty (event : String) : registration event ≠ "" := by
  unfold registration
  intro same
  rw [String.append_eq_empty_iff] at same
  exact absurd same.2 (by decide)

theorem indented_registration (event : String) :
    Layout.indented Layout.defaultUnit 1 (registration event) =
      s!"  event::register_event(\"{event}\", \"\");" := by
  have front : "  " ++ "event::register_event(\"" = "  event::register_event(\"" := by decide
  refine (Layout.indented_one (registration_ne_empty event)).trans ?_
  unfold registration
  simp only [toString]
  rw [← String.append_assoc, ← String.append_assoc]
  exact congrArg (· ++ event ++ "\", \"\");") front

theorem shown_registrar :
    (registrar p.table (eventSlots g p .base).value (eventSlots g p .post).value).shown
      Layout.defaultUnit = registrarLines g p := by
  have rows (events : List String) :
      (events.map registration).map (Layout.indented Layout.defaultUnit 1) =
        events.map fun event => s!"  event::register_event(\"{event}\", \"\");" := by
    rw [List.map_map]
    exact List.map_congr_left fun event _ => indented_registration event
  have base : Layout.indented Layout.defaultUnit 1 (phaseRemark .base) = "  // base" := rfl
  have post : Layout.indented Layout.defaultUnit 1 (phaseRemark .post) = "  // post" := rfl
  unfold registrar FunctionDef.shown
  rw [eventNames_eventSlots, eventNames_eventSlots]
  simp only [if_true, List.map_append, List.map_cons, rows, base, post]
  rw [registrarLines]
  simp

/-- A phase is laid out as its handlers, their table and an empty line. -/
theorem phaseLayout_eq :
    phaseLayout g p.table phase (eventSlots g p phase).value =
      Layout.ofLines (phaseHead g p phase) ++
        (dispatchTable p.table phase (eventSlots g p phase).value).layout ++
        Layout.ofLines [""] := by
  rw [phaseLayout, phaseHead, Layout.ofLines, List.map_cons, List.map_flatMap]
  simp only [List.map_append]
  rfl

theorem shows_phaseLayout :
    Layout.Shows (phaseLayout g p.table phase (eventSlots g p phase).value)
      (phaseHead g p phase ++ tableLines g p phase ++ [""]) := by
  rw [phaseLayout_eq]
  exact ((Layout.shows_ofLines _).append (shows_dispatchTable g p phase)).append
    (Layout.shows_ofLines _)

def fileHead (headers : List String) : List String := banner :: headers.map includeLine ++ [""]

theorem shows_fileHead (headers : List String) :
    Layout.Shows (.line banner :: includes headers ++ [Layout.blank]) (fileHead headers) := by
  have whole : .line banner :: includes headers ++ [Layout.blank] =
      Layout.ofLines (fileHead headers) := by
    rw [includes_eq, fileHead, Layout.ofLines, Layout.ofLines, List.cons_append, List.cons_append,
      List.map_cons, List.map_append]
    rfl
  exact whole ▸ Layout.shows_ofLines _

/-- The whole file, line by line. -/
theorem source_handlersSource (a : AssemblySettings) : (handlersSource a p).value.1.source =
    Text.unlines (fileHead handlerIncludes ++
      (phaseHead a.glue p .base ++ tableLines a.glue p .base ++ [""]) ++
        (phaseHead a.glue p .post ++ tableLines a.glue p .post ++ [""]) ++
          registrarLines a.glue p) := by
  have registrarShows := (registrar p.table (eventSlots a.glue p .base).value
    (eventSlots a.glue p .post).value).shows_layout
  rw [shown_registrar] at registrarShows
  simp only [handlersSource, Logged.value_bind, Logged.value_pure]
  exact ((((shows_fileHead handlerIncludes).append (shows_phaseLayout a.glue p .base)).append
    (shows_phaseLayout a.glue p .post)).append registrarShows).render

/-! ### The file again by its lines -/

theorem unbroken_tableHead (table : Table) (phase : Phase) :
    Text.IsUnbroken (s!"{table.structName} {table.dispatchSymbol phase} = \x7b").toList := by
  cases table <;> cases phase <;> decide

theorem unbroken_registrarHead (table : Table) :
    Text.IsUnbroken (s!"void {table.eventRegistrar}()").toList := by
  cases table <;> decide

theorem unbroken_registration {event : String} (unbroken : Text.IsUnbroken event.toList) :
    Text.IsUnbroken (s!"  event::register_event(\"{event}\", \"\");").toList := by
  simp only [toString]
  simp +decide only [Text.isUnbroken_append, unbroken]

theorem unbroken_rows {entries : List String} (each : ∀ e ∈ entries, Text.IsUnbroken e.toList) :
    ∀ r ∈ ListDef.rows entries, Text.IsUnbroken r.toList := by
  have comma : Text.IsUnbroken ",".toList := by decide
  intro r member
  rcases List.mem_append.mp member with inner | last
  · obtain ⟨e, among, rfl⟩ := List.mem_map.mp inner
    rw [String.toList_append]
    exact (each e (List.dropLast_subset _ among)).append comma
  · exact each r (List.mem_of_getLast? (Option.mem_toList.mp last))

section

variable {p} (oneLine : ∀ d ∈ p.declarations, d.OneLine)
include oneLine

theorem unbroken_tableLines : ∀ l ∈ tableLines g p phase, Text.IsUnbroken l.toList := by
  have marks : Text.IsUnbroken "  ".toList ∧ Text.IsUnbroken "\x7d;".toList := by decide
  have entry : ∀ e ∈ entriesOf g p phase, Text.IsUnbroken e.toList := by
    intro e member
    obtain ⟨d, inTable, rfl⟩ := List.mem_map.mp member
    exact (oneLine d inTable).unbroken_slotEntry g p.table phase
  intro l member
  rw [tableLines, List.mem_append, List.mem_cons, List.mem_singleton] at member
  rcases member with (rfl | inside) | rfl
  · exact unbroken_tableHead p.table phase
  · obtain ⟨r, among, rfl⟩ := List.mem_map.mp inside
    rw [String.toList_append]
    exact marks.1.append (unbroken_rows entry r among)
  · exact marks.2

theorem unbroken_eventsOf : ∀ e ∈ eventsOf g p phase, Text.IsUnbroken e.toList := by
  intro e member
  obtain ⟨d, kept, rfl⟩ := List.mem_map.mp member
  exact (oneLine d (List.mem_of_mem_filter kept)).unbroken_eventName p.table phase

theorem unbroken_registrarLines : ∀ l ∈ registrarLines g p, Text.IsUnbroken l.toList := by
  have marks : Text.IsUnbroken "\x7b".toList ∧ Text.IsUnbroken "  // base".toList ∧
      Text.IsUnbroken "  // post".toList ∧ Text.IsUnbroken "\x7d".toList := by
    decide
  have rows (now : Phase) :
      ∀ l ∈ (eventsOf g p now).map fun event => s!"  event::register_event(\"{event}\", \"\");",
        Text.IsUnbroken l.toList := by
    intro l member
    obtain ⟨e, among, rfl⟩ := List.mem_map.mp member
    exact unbroken_registration (unbroken_eventsOf g now oneLine e among)
  intro l member
  simp only [registrarLines, List.mem_append, List.mem_cons, List.not_mem_nil, or_false] at member
  rcases member with ((((rfl | rfl | rfl) | base) | rfl) | post) | rfl
  · exact unbroken_registrarHead p.table
  · exact marks.1
  · exact marks.2.1
  · exact rows .base l base
  · exact marks.2.2.1
  · exact rows .post l post
  · exact marks.2.2.2

/-- Every handler is defined before the table of its phase. -/
theorem handlerStart_mem_phaseHead {d : Declaration} (member : d ∈ p.declarations)
    (decision : d.isUnhandled g p.table = false) (before : List String) :
    ∃ more, d.handlerStart p.table phase ++ more ∈
      Text.lines (Text.unlines (before ++ phaseHead g p phase)) := by
  have line := oneLine d member
  obtain ⟨rest, code⟩ := line.handlerStart_mem_code g p.table phase decision g.scriptNamespace
  have inHead : d.handlerStart p.table phase ++ rest ∈ phaseHead g p phase := by
    rw [phaseHead, eventSlots, Logged.value_forEach, List.mem_cons, List.mem_flatMap]
    right
    exact ⟨_, List.mem_map_of_mem member, List.mem_append_left _ code⟩
  exact Text.line_of_mem (List.mem_append_right before inHead) (handlerStart_ne_empty p.table phase)
    (line.unbroken_handlerStart p.table phase)

end

theorem value_tableOutput (a : AssemblySettings) (p : ParsedTable) : (tableOutput a p).value =
    ⟨(handlersSource a p).value.1, bindingsSource a p (bindings a p).value,
      summarize a p (handlersSource a p).value.2 (bindings a p).value⟩ := by
  simp only [tableOutput, Logged.value_bind]
  split <;> rfl

/-- What a file of handlers and its table have to do with each other. -/
structure HandlersAgree (a : AssemblySettings) (p : ParsedTable) : Prop where
  /-- Place `i` of each table is that of declaration `i`. -/
  entries (phase : Phase) : (dispatchTable p.table phase (eventSlots a.glue p phase).value).items =
    p.declarations.map fun d => ⟨d.slotEntry a.glue p.table phase, none⟩
  /-- A place stays empty only for want of a declaration and of a handler written by hand. -/
  nulls (phase : Phase) : ∀ d ∈ p.declarations, d.slotEntry a.glue p.table phase = "NULL" ↔
    d.isUnparsable = true ∧ (a.glue.custom p.table d.name).bind (·.event) = none
  /-- Both tables and the events that are made known stand in the file, and the handlers of each
  table are defined before it. -/
  file : ∃ base post,
    Text.lines (handlersSource a p).value.1.source =
      base ++ tableLines a.glue p .base ++ post ++ tableLines a.glue p .post ++
        "" :: registrarLines a.glue p ∧
    ∀ d ∈ p.declarations, d.isUnhandled a.glue p.table = false →
      (∃ more, d.handlerStart p.table .base ++ more ∈ base) ∧
        ∃ more, d.handlerStart p.table .post ++ more ∈ post
  typings : (handlersSource a p).value.1.typings.map (·.name) =
    eventsOf a.glue p .base ++ eventsOf a.glue p .post
  count : (tableOutput a p).value.summary.events =
    (eventsOf a.glue p .base ++ eventsOf a.glue p .post).length

/-- The tables of handlers, their definitions, the events that are made known, the types of
listeners and the count of events agree for every table that has been read. -/
theorem handlers_agree {header : String} {table : Table} {logged : Logged ParsedTable}
    (found : ParsedTable.ofHeader header table = .ok logged) (a : AssemblySettings) :
    HandlersAgree a logged.value := by
  obtain ⟨-, oneLine⟩ := ParsedTable.oneLine_ofHeader found
  generalize logged.value = p at oneLine
  have counted : (handlersSource a p).value.2 =
      (eventsOf a.glue p .base ++ eventsOf a.glue p .post).length := by
    simp only [handlersSource, Logged.value_bind, Logged.value_pure, eventNames_eventSlots,
      List.length_append]
  constructor
  case entries =>
    intro phase
    rw [items_dispatchTable, entriesOf, List.map_map]
    rfl
  case nulls => exact fun phase d _ => slotEntry_eq_null_iff a.glue p.table phase d
  case file =>
    have tables (phase : Phase) := Text.lines_unlines (unbroken_tableLines a.glue phase oneLine)
    have registered := Text.lines_unlines (unbroken_registrarLines a.glue oneLine)
    refine ⟨Text.lines (Text.unlines (fileHead handlerIncludes ++ phaseHead a.glue p .base)),
      Text.lines (Text.unlines ([""] ++ phaseHead a.glue p .post)), ?_, ?_⟩
    · have blank : Text.lines (Text.unlines [""]) = [""] := Text.lines_unlines (by
        intro l member
        rw [List.mem_singleton.mp member]
        exact fun c inside => absurd inside List.not_mem_nil)
      rw [source_handlersSource]
      simp only [Text.lines_unlines_append, tables, registered, blank]
      simp only [List.append_assoc, List.cons_append, List.nil_append]
    · intro d member decision
      exact ⟨handlerStart_mem_phaseHead a.glue .base oneLine member decision _,
        handlerStart_mem_phaseHead a.glue .post oneLine member decision [""]⟩
  case typings =>
    have signatures : (handlersSource a p).value.1.typings =
        eventTypings a.glue p .base ++ eventTypings a.glue p .post := rfl
    rw [signatures, List.map_append, names_eventTypings, names_eventTypings]
  case count =>
    rw [value_tableOutput, ← counted]
    rfl

/-- A member that can be read and two that cannot. -/
def mixedHeader : String :=
  "typedef struct \x7b\nvoid (*pfnRun)(int a);\n? (*pfnLost)(int);\n? (*pfnOwn)(int);\n\x7d " ++
    "DLL_FUNCTIONS;"

/-- One of them has a handler written by hand. -/
def mixedSettings : AssemblySettings where
  glue := { custom := fun _ name =>
    if name = "pfnOwn" then some { event := some ⟨"int a", ""⟩ } else none }
  scriptNamespace := "nodemod"

theorem handlers_agree_mixed : ∃ logged, ParsedTable.ofHeader mixedHeader .dll = .ok logged ∧
    entriesOf mixedSettings.glue logged.value .base = ["dll_pfnRun", "NULL", "dll_pfnOwn"] ∧
      HandlersAgree mixedSettings logged.value := by
  have entries : (ParsedTable.ofHeader mixedHeader .dll).toOption.map
      (entriesOf mixedSettings.glue ·.value .base) =
      some ["dll_pfnRun", "NULL", "dll_pfnOwn"] := by decide +kernel
  cases found : ParsedTable.ofHeader mixedHeader .dll with
  | error fault =>
    rw [found] at entries
    cases entries
  | ok logged =>
    rw [found] at entries
    exact ⟨logged, rfl, Option.some.inj entries, handlers_agree found mixedSettings⟩

end Output

end ScriptGlue
