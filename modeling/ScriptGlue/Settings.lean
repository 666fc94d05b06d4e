import ScriptGlue.Disk.Path
import ScriptGlue.Glue.Basic
import ScriptGlue.Hook.Consistency
import ScriptGlue.Json.Input
import ScriptGlue.Text.Blank

/-!
# Settings

Where inputs are, where outputs go, and how the outputs are made. Settings come from a file and from
options, which win.
-/
namespace ScriptGlue

structure Settings where
  /-- The header that declares the tables. -/
  header : String := "build/vcpkg_installed/x86-linux/include/hlsdk/engine/eiface.h"
  /-- The source of the enumeration of hooks. -/
  hookEnum : String := "src/ham/ham_const.h"
  /-- The source of the array of hook signatures. -/
  hookTable : String := "src/ham/ham_manager.cpp"
  /-- The directory of wrapper sources; without it records stay empty. -/
  recordsDir : Option String := some "src/structures"
  nativeOut : String := "src/auto"
  typingsOut : String := "packages/core"
  scriptNamespace : String := "nodemod"
  frameTick : String := defaultFrameTick
  /-- Functions whose names contain one of these texts get no binding. -/
  apiExclude : List String := ["CRC32"]
  mismatch : Hook.MismatchPolicy := .warn
  deriving DecidableEq, Repr

structure SettingOverrides where
  header : Option String := none
  hookEnum : Option String := none
  hookTable : Option String := none
  recordsDir : Option String := none
  nativeOut : Option String := none
  typingsOut : Option String := none
  scriptNamespace : Option String := none
  mismatch : Option Hook.MismatchPolicy := none
  deriving DecidableEq, Repr

namespace Settings

/-! ### Reading -/

def textOf : JsonInput → Option String
  | .text s => s
  | _ => none

/-- A text, or null for none. -/
def optionalTextOf : JsonInput → Option (Option String)
  | .null => some none
  | v => (textOf v).map some

def textsOf : JsonInput → Option (List String)
  | .list items => items.mapM textOf
  | _ => none

def policyOfName : String → Option Hook.MismatchPolicy
  | "warn" => some .warn
  | "error" => some .error
  | _ => none

/-- A policy by name. The name may also be the only field of a record, which then holds null. -/
def policyOf : JsonInput → Option Hook.MismatchPolicy
  | .text s => s.bind policyOfName
  | .record [(some name, .null)] => policyOfName name
  | _ => none

/-- The names of the fields, in the order of a list that gives them without names. -/
def fieldNames : List String :=
  ["header", "ham_enum", "ham_table", "structures_dir", "native_out", "typings_out",
    "script_namespace", "frame_tick_function", "api_exclude", "ham_mismatch"]

/-- Sets one field, whose value must have its type. Unknown fields are passed over. -/
def setField (s : Settings) (name : String) (v : JsonInput) : Option Settings :=
  match name with
  | "header" => (textOf v).map fun x => { s with header := x }
  | "ham_enum" => (textOf v).map fun x => { s with hookEnum := x }
  | "ham_table" => (textOf v).map fun x => { s with hookTable := x }
  | "structures_dir" => (optionalTextOf v).map fun x => { s with recordsDir := x }
  | "native_out" => (textOf v).map fun x => { s with nativeOut := x }
  | "typings_out" => (textOf v).map fun x => { s with typingsOut := x }
  | "script_namespace" => (textOf v).map fun x => { s with scriptNamespace := x }
  | "frame_tick_function" => (textOf v).map fun x => { s with frameTick := x }
  | "api_exclude" => (textsOf v).map fun x => { s with apiExclude := x }
  | "ham_mismatch" => (policyOf v).map fun x => { s with mismatch := x }
  | _ => some s

/-- Sets fields in order; a known field may be set only once. -/
def setFields (s : Settings) (seen : List String) :
    List (Option String × JsonInput) → Option Settings
  | [] => some s
  | (none, _) :: _ => none
  | (some name, v) :: r =>
    if seen.contains name then none
    else do
      let s' ← s.setField name v
      setFields s' (if fieldNames.contains name then name :: seen else seen) r

/-- Settings from a value: fields by name, or the first fields in order. -/
def ofJson : JsonInput → Option Settings
  | .record fields => setFields {} [] fields
  | .list items =>
    if items.length ≤ fieldNames.length then
      setFields {} [] ((fieldNames.map some).zip items)
    else none
  | _ => none

/-- The detail of the fault that a text which holds no settings raises. -/
def unreadable : String := "invalid settings"

/-- Reads settings; fields that are not given keep their defaults. -/
def read (text : String) : Except Fault Settings :=
  match (JsonInput.read? text).bind ofJson with
  | some s => .ok s
  | none => .error (.config unreadable)

def readFile (path text : String) : Except Fault Settings :=
  match read text with
  | .error (.config detail) => .error (.config s!"{path}: {detail}")
  | result => result

/-! ### Options -/

/-- Options win over what was set before. -/
def merge (s : Settings) (o : SettingOverrides) : Settings :=
  { s with
    header := o.header.getD s.header
    hookEnum := o.hookEnum.getD s.hookEnum
    hookTable := o.hookTable.getD s.hookTable
    recordsDir := o.recordsDir.or s.recordsDir
    nativeOut := o.nativeOut.getD s.nativeOut
    typingsOut := o.typingsOut.getD s.typingsOut
    scriptNamespace := o.scriptNamespace.getD s.scriptNamespace
    mismatch := o.mismatch.getD s.mismatch }

/-- Places all relative paths below a directory. -/
def resolve (s : Settings) (root : String) : Settings :=
  { s with
    header := Path.join root s.header
    hookEnum := Path.join root s.hookEnum
    hookTable := Path.join root s.hookTable
    recordsDir := s.recordsDir.map (Path.join root)
    nativeOut := Path.join root s.nativeOut
    typingsOut := Path.join root s.typingsOut }

/-- Refuses a script namespace that is empty or has blanks. -/
def validate (s : Settings) : Except Fault Unit :=
  if Text.isAllBlank s.scriptNamespace then .error (.config "script_namespace must not be empty")
  else if s.scriptNamespace.toList.any Text.isBlank then
    .error (.config s!"script_namespace `{s.scriptNamespace}` is not an identifier")
  else .ok ()

end Settings

end ScriptGlue
