import ScriptGlue.Output.Assembly
import ScriptGlue.Proofs.Code.Forms
import ScriptGlue.Proofs.Hook.Bodies

/-!
# Code in its place

Generated code is made fragment by fragment. What a fragment adds to its file depends on its place
only by the margin, since it takes back exactly the indentation that it puts in. Detours and
declaration files put together by hand do so as well, and the detours and handlers that are copied
into their files stand there letter for letter.
-/
namespace ScriptGlue

open Code Layout

/-! ### Fragments -/

namespace Code

inductive Fragment where
  | function (f : FunctionDef)
  | list (d : ListDef)
  | method (s : TypedSignature)
  | event (s : TypedSignature)
  | interface (i : TypedInterface)
  | enumeration (e : TypedEnum)

namespace Fragment

def layout : Fragment → Layout
  | function f => f.layout
  | list d => d.layout
  | method s => s.methodLayout
  | event s => s.eventLayout
  | interface i => i.layout
  | enumeration e => e.layout

def pieces : Fragment → List String
  | function f => f.pieces
  | list d => d.pieces
  | method s => s.pieces
  | event s => s.pieces
  | interface i => i.pieces
  | enumeration e => e.pieces

theorem isNested_layout (f : Fragment) : IsNested f.layout := by
  cases f with
  | function f => exact f.isNested_layout
  | list d => exact d.isNested_layout
  | method s => exact s.isNested_methodLayout
  | event s => exact s.isNested_eventLayout
  | interface i => exact i.isNested_layout
  | enumeration e => exact e.isNested_layout

theorem isPlain_layout {f : Fragment} (clean : ∀ piece ∈ f.pieces, '\n' ∉ piece.toList) :
    IsPlain f.layout := by
  cases f with
  | function f => exact FunctionDef.isPlain_layout clean
  | list d => exact ListDef.isPlain_layout clean
  | method s => exact TypedSignature.isPlain_methodLayout clean
  | event s => exact TypedSignature.isPlain_eventLayout clean
  | interface i => exact TypedInterface.isPlain_layout clean
  | enumeration e => exact TypedEnum.isPlain_layout clean

/-- What a fragment adds to a file is independent of its place up to the margin. -/
structure IsInPlace (f : Fragment) : Prop where
  nested : IsNested f.layout
  /-- It ends at the depth at which it starts and does not come below it on the way. -/
  depth : ∀ start, depthAfter start f.layout = start ∧
    ∀ n, start ≤ depthAfter start (f.layout.take n)
  /-- Behind any other output it gives its own lines, each with the indentation of the place unless
  it is empty. -/
  lines : ∀ unit start before, shown unit start (before ++ f.layout) = shown unit start before ++
    (shown unit 0 f.layout).map (Text.marginLine (units unit (depthAfter start before)))
  /-- Where no piece goes on over several lines, the same is true of the text. -/
  text : (∀ piece ∈ f.pieces, '\n' ∉ piece.toList) → ∀ unit, '\n' ∉ unit.toList →
    ∀ start before, renderAt unit start (before ++ f.layout) = renderAt unit start before ++
      Text.withMargin (units unit (depthAfter start before)) (renderAt unit 0 f.layout)

theorem isInPlace (f : Fragment) : f.IsInPlace where
  nested := f.isNested_layout
  depth start := ⟨f.isNested_layout.isLevel start, f.isNested_layout.le_depthAfter start⟩
  lines := f.isNested_layout.shown_behind
  text clean _ plain := f.isNested_layout.renderAt_behind (isPlain_layout clean) plain

/-- Deeper in, empty lines stay empty. -/
example : renderAt "  " 0 (.enter :: (function ⟨[], "void f()", ["", "g();"], false⟩).layout) =
    "  void f() \x7b\n\n    g();\n  \x7d\n" := by
  decide +kernel

end Fragment

end Code

/-! ### Detours -/

namespace Hook

namespace Catalogue

/-- A detour without carriage returns stands in the file of detours letter for letter. -/
theorem isInfix_detourFile (c : Catalogue) {s : Signature} (member : s ∈ c.detours)
    (noReturn : '\r' ∉ (detourCode s).toList) :
    (detourCode s).toList <:+: c.detourFile.toList := by
  obtain ⟨before, behind, split⟩ := List.append_of_mem member
  have level := (isNested_openingPart.append (isNested_copies before)).isLevel 0
  have found := isInfix_renderAt (b := [Layout.blank] ++ copies behind ++ c.closingPart)
    level noReturn detourUnit
  have parts : copies c.detours =
      copies before ++ (ofText (detourCode s) ++ [Layout.blank] ++ copies behind) := by
    rw [split, copies, List.flatMap_append, List.flatMap_cons]
    rfl
  rw [detourFile, detourFileLayout_eq, parts]
  simpa only [List.append_assoc] using found

end Catalogue

end Hook

namespace Output

/-! ### Declaration files -/

def typingLayout (scriptNamespace : String) (references : List String) (body : Layout) : Layout :=
  .line banner :: references.map (fun r => .line s!"/// <reference path=\"./{r}\" />") ++
    (if references.isEmpty then [] else [Layout.blank]) ++
    block s!"declare namespace {scriptNamespace}" body "\x7d"

/-- What stands before the namespace of a declaration file. -/
theorem isNested_typingFront (references : List String) :
    IsNested (.line banner :: references.map (fun r => .line s!"/// <reference path=\"./{r}\" />") ++
      (if references.isEmpty then [] else [Layout.blank])) := by
  have gap : IsNested (if references.isEmpty then [] else [Layout.blank]) := by
    split
    · exact isNested_nil
    · exact isNested_line ""
  have listed := (onlyLines_map (fun r => s!"/// <reference path=\"./{r}\" />") references).isNested
  exact (listed.cons_line banner).append gap

theorem isNested_typingLayout (scriptNamespace : String) (references : List String) {body : Layout}
    (inside : IsNested body) : IsNested (typingLayout scriptNamespace references body) :=
  (isNested_typingFront references).append (isNested_block _ _ inside)

/-- What a declaration file declares stands one unit deeper in, before its last line. -/
theorem exists_shown_typingLayout (scriptNamespace : String) (references : List String)
    {body : Layout} (inside : IsNested body) : ∃ before,
    shown defaultUnit 0 (typingLayout scriptNamespace references body) =
      before ++ (shown defaultUnit 0 body).map (Text.marginLine "  ") ++ ["\x7d"] := by
  have unit : units defaultUnit 1 = "  " := by decide
  have parted (front ls : List String) (head : String) :
      front ++ (head :: ls ++ ["\x7d"]) = front ++ [head] ++ ls ++ ["\x7d"] := by
    simp
  rw [typingLayout, (isNested_typingFront references).shown_before, inside.shown_block, unit]
  exact ⟨_, parted _ _ _⟩

inductive TypingFile where
  | enums
  | events (signatures : List TypedSignature)
  | records (records : List RecordShape)
  | surface (table : Table) (methods : List TypedSignature)
  | hooks (c : Hook.Catalogue)
  | index

namespace TypingFile

def text (scriptNamespace : String) : TypingFile → String
  | enums => enumsText scriptNamespace
  | events signatures => eventsText scriptNamespace signatures
  | records rs => recordsText scriptNamespace rs
  | surface table methods => surfaceText scriptNamespace table methods
  | hooks c => hooksText scriptNamespace c
  | index => indexText scriptNamespace

def references : TypingFile → List String
  | enums | records _ => []
  | events _ | hooks _ => [recordsFile]
  | surface _ _ => [recordsFile, enumsFile]
  | index => [enumsFile, eventsFile, recordsFile, Table.engine.typingsFile, Table.dll.typingsFile,
      hooksFile]

def body : TypingFile → Layout
  | enums => [Layout.blank].intercalate <|
      engineEnums.map fun (remark, e) => .line s!"// {remark}" :: e.layout
  | events signatures =>
    .line "// Event callbacks map" ::
      TypedInterface.layout { name := "EventCallbacks", members := signatures.map .event }
  | records rs =>
    (opaqueInterface "FileHandle" "Opaque file handle - use with engine file functions").layout ++
      [Layout.blank] ++ rs.flatMap (fun r => (recordInterface r).layout) ++
      (opaqueInterface "ItemInfo"
        "Weapon item info - Ham callbacks receive null until it is wrapped").layout
  | surface table methods =>
    TypedInterface.layout { name := table.interfaceName, members := methods.map .method } ++
      [.line s!"const {table.key}: {table.interfaceName};"]
  | hooks c =>
    (hookEnum c).layout ++ [Layout.blank] ++ (resultEnum c).layout ++
      [Layout.blank,
        .line "// Ham callback type mappings - maps HAM_FUNC to callback signature",
        .line <| "// All callbacks receive '" ++ Hook.thisName ++
          "' (the hooked entity) as the first parameter",
        .line "type HamCallbackFor<T extends HAM_FUNC> =",
        .enter] ++
      c.entries.map (fun e => .line (callbackArm e)) ++
      [.line s!"({Hook.thisName}: Entity, ...args: any[]) => HAM_RESULT | void;", .leave]
  | index =>
    [.line "// Properties",
      .line "const cwd: string;",
      .line "const players: Entity[];",
      .line "const mapname: string;",
      .line "const time: number;",
      Layout.blank,
      .line "// Event system functions"] ++
      ["on", "addEventListener", "addListener", "removeListener", "removeEventListener"].map
        listenerFunction ++
      [.line "function clearListeners(eventName?: keyof EventCallbacks): void;",
        .line <| "function fire<T extends keyof EventCallbacks>(eventName: T, " ++
          "...args: Parameters<EventCallbacks[T]>): void;",
        Layout.blank,
        .line "// Utility functions",
        .line "function getUserMsgId(msgName: string): number;",
        .line "function getUserMsgName(msgId: number): string;",
        .line "function setMetaResult(result: META_RES): void;",
        .line "function continueServer(): void;"]

def layout (scriptNamespace : String) (file : TypingFile) : Layout :=
  typingLayout scriptNamespace file.references file.body

theorem text_eq (scriptNamespace : String) (file : TypingFile) :
    file.text scriptNamespace = (file.layout scriptNamespace).render := by
  cases file <;> rfl

theorem isNested_body (file : TypingFile) : IsNested file.body := by
  cases file with
  | enums =>
    refine isNested_intercalate (isNested_line "") fun part member => ?_
    obtain ⟨⟨remark, e⟩, -, rfl⟩ := List.mem_map.mp member
    exact e.isNested_layout.cons_line _
  | events signatures => exact (TypedInterface.isNested_layout _).cons_line _
  | records rs =>
    have wrapped := isNested_flatMap rs fun r _ => (recordInterface r).isNested_layout
    exact (((TypedInterface.isNested_layout _).append (isNested_line "")).append wrapped).append
      (TypedInterface.isNested_layout _)
  | surface table methods => exact (TypedInterface.isNested_layout _).append (isNested_line _)
  | hooks c =>
    -- The arms of the callback type are indented without a brace around them.
    have arms : IsNested (c.entries.map (fun e => Step.line (callbackArm e)) ++
        [.line s!"({Hook.thisName}: Entity, ...args: any[]) => HAM_RESULT | void;"]) :=
      (onlyLines_map callbackArm c.entries).isNested.append (isNested_line _)
    have remarks := onlyLines_ofLines ["",
      "// Ham callback type mappings - maps HAM_FUNC to callback signature",
      "// All callbacks receive '" ++ Hook.thisName ++
        "' (the hooked entity) as the first parameter",
      "type HamCallbackFor<T extends HAM_FUNC> ="]
    have whole := ((((hookEnum c).isNested_layout.append (isNested_line "")).append
      (resultEnum c).isNested_layout).append remarks.isNested).append arms.enclosed
    simpa [body, ofLines, Layout.blank] using whole
  | index =>
    have flat : OnlyLines index.body := by decide
    exact flat.isNested

theorem isNested_layout (scriptNamespace : String) (file : TypingFile) :
    IsNested (file.layout scriptNamespace) :=
  isNested_typingLayout _ _ file.isNested_body

end TypingFile

/-- All declaration files that are written are made from such a layout. -/
theorem typingFile_of_mem {scriptNamespace : String} {tables : List (Table × TableOutput)}
    {c : Hook.Catalogue} {records : List RecordShape} {f : OutputFile}
    (member : f ∈ outputFiles scriptNamespace tables c records) (typings : f.kind = .typings) :
    ∃ file : TypingFile, f.contents = file.text scriptNamespace := by
  simp only [outputFiles, List.mem_append, List.mem_flatMap, List.mem_map, List.mem_cons,
    List.not_mem_nil, or_false] at member
  rcases member with ((⟨⟨t, out⟩, -, rfl | rfl⟩ | rfl | rfl | rfl | rfl) | ⟨⟨t, out⟩, -, rfl⟩) |
    rfl | rfl
  · cases typings
  · cases typings
  · cases typings
  -- The text is unfolded first. Otherwise `rfl` would compare what the two sides write.
  · exact ⟨.enums, by rw [TypingFile.text]⟩
  · exact ⟨.events _, by rw [TypingFile.text]⟩
  · exact ⟨.records records, by rw [TypingFile.text]⟩
  · exact ⟨.surface t _, by rw [TypingFile.text]⟩
  · exact ⟨.hooks c, by rw [TypingFile.text]⟩
  · exact ⟨.index, by rw [TypingFile.text]⟩

/-! ### Handlers -/

/-- The code of a handler that is free of carriage returns stands in its file letter for letter. -/
theorem isInfix_handlersSource (a : AssemblySettings) (p : ParsedTable) (phase : Phase)
    {slot : EventSlot} (member : slot ∈ (eventSlots a.glue p phase).value)
    (noReturn : '\r' ∉ (slot.code a.glue.scriptNamespace).toList) :
    (slot.code a.glue.scriptNamespace).toList <:+: (handlersSource a p).value.1.source.toList := by
  let copies (slots : List EventSlot) : Layout :=
    slots.flatMap fun s => ofText (s.code a.glue.scriptNamespace) ++ [Layout.blank]
  have copied (slots : List EventSlot) : IsNested (copies slots) :=
    isNested_flatMap slots fun s _ => (onlyLines_ofLines _).isNested.append (isNested_line "")
  have phaseNested (now : Phase) (slots : List EventSlot) :
      IsNested (phaseLayout a.glue p.table now slots) :=
    (((copied slots).cons_line _).append (ListDef.isNested_layout _)).append (isNested_line "")
  have head : IsNested (.line banner :: includes handlerIncludes ++ [Layout.blank]) := by
    rw [includes_eq]
    exact ((onlyLines_ofLines _).isNested.cons_line banner).append (isNested_line "")
  obtain ⟨before, behind, split⟩ := List.append_of_mem member
  have here (front : Layout) (nested : IsNested front) (rest : Layout) :
      (slot.code a.glue.scriptNamespace).toList <:+: (Layout.render (front ++
        phaseLayout a.glue p.table phase (eventSlots a.glue p phase).value ++ rest)).toList := by
    have level := (nested.append ((copied before).cons_line (phaseTitle phase))).isLevel 0
    have found := isInfix_renderAt (b := [Layout.blank] ++ copies behind ++
      (dispatchTable p.table phase (eventSlots a.glue p phase).value).layout ++ [Layout.blank] ++
        rest) level noReturn defaultUnit
    rw [Layout.render, phaseLayout, split]
    rw [split] at found
    simpa [copies, List.append_assoc] using found
  simp only [handlersSource, Logged.value_bind, Logged.value_pure]
  cases phase with
  | base =>
    rw [List.append_assoc]
    have found := here _ head (phaseLayout a.glue p.table .post (eventSlots a.glue p .post).value ++
      (registrar p.table (eventSlots a.glue p .base).value
        (eventSlots a.glue p .post).value).layout)
    simpa only [List.append_assoc] using found
  | post => exact here _ (head.append (phaseNested .base _)) _

/-! ### All of them -/

/-- What generated code has in common, wherever it is put. -/
structure IsMadeInPlace : Prop where
  /-- The output is the lines that are shown. -/
  output : ∀ unit depth layout, renderAt unit depth layout = Text.unlines (shown unit depth layout)
  fragments : ∀ f : Fragment, f.IsInPlace
  detours : ∀ s, IsNested (Hook.detourLayout s)
  typingFiles : ∀ (scriptNamespace : String) (tables : List (Table × TableOutput))
    (c : Hook.Catalogue) (records : List RecordShape),
    ∀ f ∈ outputFiles scriptNamespace tables c records, f.kind = .typings →
      ∃ file : TypingFile, f.contents = (file.layout scriptNamespace).render ∧
        IsNested (file.layout scriptNamespace)
  copiedLines : ∀ unit start before text,
    shown unit start (before ++ ofText text) = shown unit start before ++
      (Text.lines text).map (Text.marginLine (units unit (depthAfter start before)))
  /-- A text that has been made by a layout is copied like that layout, if nothing is taken from
  the ends of its lines. -/
  copies : ∀ (inner : String) (depth : Nat) (layout : Layout),
    '\r' ∉ (renderAt inner depth layout).toList → ∀ unit start before,
      renderAt unit start (before ++ ofText (renderAt inner depth layout)) =
        renderAt unit start before ++ Text.withMargin (units unit (depthAfter start before))
          (renderAt inner depth layout)
  detourCopies : ∀ c : Hook.Catalogue, ∀ s ∈ c.detours, '\r' ∉ (Hook.detourCode s).toList →
    (Hook.detourCode s).toList <:+: c.detourFile.toList
  handlerCopies : ∀ (a : AssemblySettings) (p : ParsedTable) (phase : Phase),
    ∀ slot ∈ (eventSlots a.glue p phase).value,
      '\r' ∉ (slot.code a.glue.scriptNamespace).toList →
        (slot.code a.glue.scriptNamespace).toList <:+: (handlersSource a p).value.1.source.toList

/-- All code is made independently of its place. -/
theorem made_in_place : IsMadeInPlace where
  output := renderAt_eq_unlines
  fragments := Fragment.isInPlace
  detours := Hook.Signature.isNested_detourLayout
  typingFiles scriptNamespace tables c records f member typings := by
    obtain ⟨file, contents⟩ := typingFile_of_mem member typings
    exact ⟨file, contents.trans (file.text_eq scriptNamespace), file.isNested_layout _⟩
  copiedLines := shown_copied
  copies inner depth layout noReturn := renderAt_copied rfl noReturn
  detourCopies c _ member noReturn := c.isInfix_detourFile member noReturn
  handlerCopies a p phase _ member noReturn := isInfix_handlersSource a p phase member noReturn

end Output

end ScriptGlue
