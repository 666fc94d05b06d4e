import ScriptGlue.Code.Typing
import ScriptGlue.Hook.ParamName
import ScriptGlue.Record.Shape
import ScriptGlue.Table.Basic

/-!
# Declaration files

The files that tell scripts what there is: enumerations, events, records, callable functions, hooks,
and an index that refers to all of them. Each wraps its contents in one namespace.
-/
namespace ScriptGlue.Output

open Code

/-- The first line of every generated file. -/
def banner : String := "// This file is generated automatically. Don't edit it."

def enumsFile : String := "enums.d.ts"
def eventsFile : String := "events.d.ts"
def recordsFile : String := "structures.d.ts"
def hooksFile : String := "ham.d.ts"
def indexFile : String := "index.d.ts"

def typingFile (scriptNamespace : String) (references : List String) (body : Layout) : String :=
  Layout.render <|
    .line banner :: references.map (fun r => .line s!"/// <reference path=\"./{r}\" />") ++
      (if references.isEmpty then [] else [Layout.blank]) ++
      Layout.block s!"declare namespace {scriptNamespace}" body "\x7d"

/-- Numbered names without remarks. -/
def numberedValues (names : List String) : List TypedValue :=
  names.mapIdx fun i name => ⟨name, i, none⟩

def engineEnums : List (String × TypedEnum) :=
  [("Metamod result constants", {
      name := "META_RES"
      values := [
        ⟨"UNSET", 0, some "Uninitialized (causes error)"⟩,
        ⟨"IGNORED", 1, some "Plugin didn't take any action, continue normally"⟩,
        ⟨"HANDLED", 2, some "Plugin did something, but original function still executes"⟩,
        ⟨"OVERRIDE", 3, some "Execute original function, but use plugin's return value"⟩,
        ⟨"SUPERCEDE", 4, some "Skip original function entirely, use plugin's behavior"⟩] }),
    ("Alert types for engine functions", {
      name := "ALERT_TYPE"
      values := numberedValues ["at_notice", "at_console", "at_aiconsole", "at_warning",
        "at_error", "at_logged"] }),
    ("Print types for client output", {
      name := "PRINT_TYPE"
      values := numberedValues ["print_console", "print_center", "print_chat"] }),
    ("Force types for consistency checking", {
      name := "FORCE_TYPE"
      values := numberedValues ["force_exactfile", "force_model_samebounds",
        "force_model_specifybounds", "force_model_specifybounds_if_avail"] })]

def enumsText (scriptNamespace : String) : String :=
  typingFile scriptNamespace [] <|
    [Layout.blank].intercalate <|
      engineEnums.map fun (remark, e) => .line s!"// {remark}" :: e.layout

def eventsText (scriptNamespace : String) (events : List TypedSignature) : String :=
  let callbacks : TypedInterface := { name := "EventCallbacks", members := events.map .event }
  typingFile scriptNamespace [recordsFile] (.line "// Event callbacks map" :: callbacks.layout)

/-- An interface with nothing but a remark. -/
def opaqueInterface (name remark : String) : TypedInterface :=
  { name := name, members := [.comment remark] }

def recordInterface (r : RecordShape) : TypedInterface where
  name := r.name
  members := r.notes.map .comment ++ r.properties.map fun p => .property p.name p.type
  spaced := true

def recordsText (scriptNamespace : String) (records : List RecordShape) : String :=
  typingFile scriptNamespace [] <|
    (opaqueInterface "FileHandle" "Opaque file handle - use with engine file functions").layout ++
      [Layout.blank] ++ records.flatMap (fun r => (recordInterface r).layout) ++
      (opaqueInterface "ItemInfo"
        "Weapon item info - Ham callbacks receive null until it is wrapped").layout

def surfaceText (scriptNamespace : String) (table : Table) (methods : List TypedSignature) :
    String :=
  let surface : TypedInterface := { name := table.interfaceName, members := methods.map .method }
  typingFile scriptNamespace [recordsFile, enumsFile] <|
    surface.layout ++ [.line s!"const {table.key}: {table.interfaceName};"]

def resultRemark : String → Option String
  | "UNSET" => some "Default state"
  | "IGNORED" => some "Hook had no effect, continue normally"
  | "HANDLED" => some "Hook processed the call, but still call original"
  | "OVERRIDE" => some "Use hook's return value instead of original"
  | "SUPERCEDE" => some "Don't call original function at all"
  | _ => none

def signedWord (n : Nat) : Int :=
  if n < 0x8000000000000000 then n else (n : Int) - 0x10000000000000000

/-- The parameters of a callback after the hooked object. -/
def callbackParams (s : Hook.Signature) : List String :=
  s.namedParams.map fun p => s!"{p.name}: {p.shape.scriptType}"

def callbackType (e : Hook.Entry) : String :=
  let this := s!"{Hook.thisName}: Entity"
  match e.signature with
  | none => s!"({this}) => HAM_RESULT | void"
  | some s =>
    let params := ", ".intercalate (this :: callbackParams s)
    s!"({params}) => HAM_RESULT | {s.returns.scriptType}"

def hookEnum (c : Hook.Catalogue) : TypedEnum where
  name := "HAM_FUNC"
  isConst := true
  doc := some "Ham function IDs for virtual function hooking"
  values := c.entries.map fun e => ⟨e.name, signedWord e.id, none⟩

def resultEnum (c : Hook.Catalogue) : TypedEnum where
  name := "HAM_RESULT"
  isConst := true
  doc := some "Ham (Hamsandwich) hook result values"
  values := c.results.map fun r => ⟨r.name, r.value, resultRemark r.name⟩

def callbackArm (e : Hook.Entry) : String :=
  s!"T extends HAM_FUNC.{e.name} ? {callbackType e} :"

def hooksText (scriptNamespace : String) (c : Hook.Catalogue) : String :=
  typingFile scriptNamespace [recordsFile] <|
    (hookEnum c).layout ++ [Layout.blank] ++ (resultEnum c).layout ++
      [Layout.blank,
        .line "// Ham callback type mappings - maps HAM_FUNC to callback signature",
        .line <| "// All callbacks receive '" ++ Hook.thisName ++
          "' (the hooked entity) as the first parameter",
        .line "type HamCallbackFor<T extends HAM_FUNC> =",
        .enter] ++
      c.entries.map (fun e => .line (callbackArm e)) ++
      [.line s!"({Hook.thisName}: Entity, ...args: any[]) => HAM_RESULT | void;", .leave]

def listenerFunction (name : String) : Step :=
  .line <| s!"function {name}<T extends keyof EventCallbacks>(eventName: T, " ++
    "callback: EventCallbacks[T]): void;"

/-- The index, which also declares what belongs to no other file. -/
def indexText (scriptNamespace : String) : String :=
  typingFile scriptNamespace
    [enumsFile, eventsFile, recordsFile, Table.engine.typingsFile, Table.dll.typingsFile,
      hooksFile] <|
    [.line "// Properties",
      .line "const cwd: string;",
      .line "const players: Entity[];",
      .line "const mapname: string;",
      .line "const time: number;",
      Layout.blank,
      .line "// Event system functions"] ++
      ["on", "addEventListener", "addListener", "removeListener", "removeEventListener"].map
        listenerFunction ++
      [.line "function clearListeners(eventName?: keyof EventCallbacks): void;",
        .line <| "function fire<T extends keyof EventCallbacks>(eventName: T, " ++
          "...args: Parameters<EventCallbacks[T]>): void;",
        Layout.blank,
        .line "// Utility functions",
        .line "function getUserMsgId(msgName: string): number;",
        .line "function getUserMsgName(msgId: number): string;",
        .line "function setMetaResult(result: META_RES): void;",
        .line "function continueServer(): void;"]

end ScriptGlue.Output
