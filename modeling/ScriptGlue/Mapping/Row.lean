import ScriptGlue.Mapping.Spelling

/-!
# Rows of the type mapping

How native types convert to script values and back. Expressions hold `{v}` for the value, `{n}` for
the name of the argument, `{t}` for the type and `{len}` for a number of elements.
-/
namespace ScriptGlue.Mapping

/-- A type that is mapped as it is spelled. -/
structure BasicRow where
  toNative : String
  toScript : String
  declared : String
  deriving DecidableEq, Repr

structure RecordRow where
  /-- What the names of its wrapping and unwrapping functions end with. -/
  wrapper : String
  declared : String
  /-- What a pointer to a constant is cast to before it is wrapped. -/
  constCast : Option String
  deriving DecidableEq, Repr

/-- A type that single pointers lead to. -/
structure PointerRow where
  toNative : String
  toScript : String
  declared : String
  /-- The number of elements where none is known. -/
  defaultLength : Option Nat
  deriving DecidableEq, Repr

/-- How a type is mapped. -/
inductive Row where
  | basic (row : BasicRow)
  | record (row : RecordRow)
  | pointer (row : PointerRow)
  deriving DecidableEq, Repr

def stringIn : String := "utils::js2string(isolate, {v})"
def stringOut : String := "v8::String::NewFromUtf8(isolate, {v} ? {v} : \"\").ToLocalChecked()"
def intIn : String := "{v}->Int32Value(context).ToChecked()"
def uintIn : String := "{v}->Uint32Value(context).ToChecked()"
def numberIn : String := "{v}->NumberValue(context).ToChecked()"
def numberOut : String := "v8::Number::New(isolate, {v})"
def pointerIn : String := "utils::jsToPointer(isolate, {v})"
def externalOut : String := "v8::External::New(isolate, {v})"

/-- The script type of memory whose shape is not known. -/
def opaqueMemory : String := "ArrayBuffer | null"

/-- Types by canonical spelling. -/
def basicRows : List (String × BasicRow) := [
  ("const char*", ⟨stringIn, stringOut, "string"⟩),
  ("char*", ⟨stringIn, stringOut, "string"⟩),
  ("char", ⟨intIn, numberOut, "number"⟩),
  ("int", ⟨intIn, numberOut, "number"⟩),
  ("unsigned char", ⟨intIn, numberOut, "number"⟩),
  ("short", ⟨intIn, numberOut, "number"⟩),
  ("unsigned short", ⟨intIn, numberOut, "number"⟩),
  ("byte", ⟨intIn, numberOut, "number"⟩),
  ("unsigned int", ⟨uintIn, numberOut, "number"⟩),
  ("CRC32_t", ⟨uintIn, numberOut, "number"⟩),
  ("float", ⟨numberIn, numberOut, "number"⟩),
  ("double", ⟨numberIn, numberOut, "number"⟩),
  ("qboolean", ⟨"{v}->BooleanValue(isolate)", "v8::Boolean::New(isolate, {v})", "boolean"⟩),
  ("ALERT_TYPE", ⟨"(ALERT_TYPE)" ++ intIn, numberOut, "number"⟩),
  ("FORCE_TYPE", ⟨"(FORCE_TYPE)" ++ intIn, numberOut, "number"⟩),
  ("PRINT_TYPE", ⟨"(PRINT_TYPE)" ++ intIn, numberOut, "number"⟩),
  ("vec3_t", ⟨"{n}_vec", "utils::vect2js(isolate, {v})", "number[]"⟩),
  ("TraceResult", ⟨"*structures::unwrapTraceResult(isolate, {v})",
    "structures::wrapTraceResult(isolate, &{v})", "TraceResult"⟩),
  ("void*", ⟨pointerIn, externalOut, opaqueMemory⟩),
  ("FILE*", ⟨"(FILE*)" ++ pointerIn, externalOut, "FileHandle"⟩),
  ("char**", ⟨"(char**)" ++ pointerIn, "utils::stringArrayToJS(isolate, {v})", "string[]"⟩),
  ("unsigned char**", ⟨"(unsigned char**)" ++ pointerIn, externalOut, opaqueMemory⟩),
  ("const struct usercmd_s*",
    ⟨"(const struct usercmd_s*)structures::unwrapUserCmd(isolate, {v})",
      "structures::wrapUserCmd(isolate, (void*){v})", "UserCmd"⟩),
  ("const struct netadr_s*",
    ⟨"(const struct netadr_s*)structures::unwrapNetAdr(isolate, {v})",
      "structures::wrapNetAdr(isolate, (void*){v})", "NetAdr"⟩),
  ("...", ⟨"/* variadic args */", "/* variadic args */", "any[]"⟩)]

/-- Structures by base name. -/
def recordRows : List (String × RecordRow) := [
  ("edict_t", ⟨"Entity", "Entity", none⟩),
  ("edict_s", ⟨"Entity", "Entity", none⟩),
  ("entvars_t", ⟨"Entvars", "Entvars", some "entvars_t*"⟩),
  ("entvars_s", ⟨"Entvars", "Entvars", some "entvars_t*"⟩),
  ("clientdata_s", ⟨"ClientData", "ClientData", some "void*"⟩),
  ("entity_state_s", ⟨"EntityState", "EntityState", some "void*"⟩),
  ("usercmd_s", ⟨"UserCmd", "UserCmd", some "void*"⟩),
  ("netadr_s", ⟨"NetAdr", "NetAdr", some "void*"⟩),
  ("weapon_data_s", ⟨"WeaponData", "WeaponData", some "void*"⟩),
  ("playermove_s", ⟨"PlayerMove", "PlayerMove", some "void*"⟩),
  ("customization_t", ⟨"Customization", "Customization", some "void*"⟩),
  ("KeyValueData", ⟨"KeyValueData", "KeyValueData", some "void*"⟩),
  ("SAVERESTOREDATA", ⟨"SaveRestoreData", "SaveRestoreData", some "void*"⟩),
  ("TYPEDESCRIPTION", ⟨"TypeDescription", "TypeDescription", some "void*"⟩),
  ("delta_s", ⟨"Delta", "Delta", some "void*"⟩),
  ("cvar_s", ⟨"Cvar", "Cvar", some "void*"⟩),
  ("cvar_t", ⟨"Cvar", "Cvar", some "void*"⟩),
  ("TraceResult", ⟨"TraceResult", "TraceResult", some "TraceResult*"⟩)]

/-- What single pointers lead to, by base name. -/
def pointerRows : List (String × PointerRow) := [
  ("float", ⟨"(float*)" ++ pointerIn, "utils::floatArrayToJS(isolate, {v}, {len})", "number[]",
    some 3⟩),
  ("int", ⟨"(int*)" ++ pointerIn, "utils::intArrayToJS(isolate, {v}, {len})", "number[]", some 1⟩),
  ("unsigned char", ⟨"(unsigned char*)" ++ pointerIn,
    "utils::byteArrayToJS(isolate, {v}, {len})", "Uint8Array", some 1⟩),
  ("byte", ⟨"(byte*)" ++ pointerIn, "utils::byteArrayToJS(isolate, {v}, {len})", "Uint8Array",
    some 1⟩),
  ("void", ⟨pointerIn, externalOut, opaqueMemory, none⟩),
  ("CRC32_t", ⟨"(CRC32_t*)" ++ pointerIn, externalOut, opaqueMemory, none⟩),
  ("FILE", ⟨"(FILE*)" ++ pointerIn, externalOut, "FileHandle", none⟩)]

/-- How a type is mapped: by its spelling, else as a structure or a pointer to one, else as a single
pointer. -/
def row? (type : String) : Option Row :=
  let spelling := canonical type
  let depth := pointerDepth type
  match basicRows.lookup spelling with
  | some row => some (.basic row)
  | none =>
    if 1 < depth then none
    else
      match recordRows.lookup (baseName type) with
      | some row => some (.record row)
      | none =>
        if depth = 1 then (pointerRows.lookup (baseName type)).map .pointer else none

/-- The row of a structure, by value or behind a single pointer. -/
def recordRow? (type : String) : Option RecordRow :=
  match row? type with
  | some (.record row) => some row
  | _ => none

/-- The row of a single pointer to something that is no structure. -/
def pointerRow? (type : String) : Option PointerRow :=
  match row? type with
  | some (.pointer row) => some row
  | _ => none

def isRecord (type : String) : Bool := (recordRow? type).isSome

def declaredType (type : String) : String :=
  if canonical type = "void" then "void"
  else
    match row? type with
    | some (.basic row) => row.declared
    | some (.record row) => row.declared
    | some (.pointer row) => row.declared
    | none => if 0 < pointerDepth type then opaqueMemory else "unknown"

end ScriptGlue.Mapping
