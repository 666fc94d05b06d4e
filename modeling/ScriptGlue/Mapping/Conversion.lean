import ScriptGlue.Journal
import ScriptGlue.Mapping.Row
import ScriptGlue.Text.Search

/-!
# Conversions

Expressions that turn native values into script values and back. A type without a row gets an
expression that marks it, and a remark.
-/
namespace ScriptGlue.Mapping

/-- Where a conversion comes from. -/
inductive Source where
  | exact
  | record
  | pointer
  | unknown
  deriving DecidableEq, Repr

def Row.source : Row → Source
  | basic _ => .exact
  | record _ => .record
  | pointer _ => .pointer

structure Conversion where
  expr : String
  source : Source
  /-- The number of elements that was taken for lack of a known one. -/
  assumedLength : Option Nat := none
  deriving DecidableEq, Repr

def Conversion.isUnknown (c : Conversion) : Bool := c.source == .unknown

/-- Fills in an expression, one kind of mark after the other. -/
def fill (template value name type : String) (length : Option String) : String :=
  let filled := Text.replace
    (Text.replace (Text.replace template "{v}" value) "{n}" name) "{t}" type
  match length with
  | some length => Text.replace filled "{len}" length
  | none => filled

/-- Whether an expression asks for a number of elements. -/
def takesLength (template : String) : Bool := Text.contains template "{len}"

/-- The script value of a structure. A pointer to a constant is cast first. -/
def wrap (row : RecordRow) (spelling value : String) : String :=
  let arg :=
    match row.constCast with
    | some cast => if (Text.words spelling).contains "const" then s!"({cast}){value}" else value
    | none => value
  s!"structures::wrap{row.wrapper}(isolate, {arg})"

/-- The script value of a pointer. A known length wins over the default one. -/
def pointerOut (row : PointerRow) (spelling value : String) (length : Option String) :
    Conversion :=
  match length with
  | some length => ⟨fill row.toScript value "" spelling (some length), .pointer, none⟩
  | none =>
    if takesLength row.toScript then
      ⟨fill row.toScript value "" spelling (row.defaultLength.map toString), .pointer,
        row.defaultLength⟩
    else ⟨fill row.toScript value "" spelling none, .pointer, none⟩

/-- Native value to script value; `length` is a number of elements or an expression for it. -/
def toScript (type value : String) (length : Option String) : Logged Conversion :=
  let spelling := canonical type
  match row? type with
  | some (.basic row) => pure ⟨fill row.toScript value "" spelling none, .exact, none⟩
  | some (.record row) => pure ⟨wrap row spelling value, .record, none⟩
  | some (.pointer row) => pure (pointerOut row spelling value length)
  | none => do
    Logged.warn s!"no native-to-script mapping for type `{type}`"
    return ⟨s!"v8::External::New(isolate, (void*){value}) /* unknown type: {type} */", .unknown,
      none⟩

/-- Script value to native value; `name` names local variables that hold parts of it. -/
def toNative (type value name : String) : Logged Conversion :=
  let spelling := canonical type
  match row? type with
  | some (.basic row) => pure ⟨fill row.toNative value name spelling none, .exact, none⟩
  | some (.record row) =>
    let call := s!"structures::unwrap{row.wrapper}(isolate, {value})"
    let expr :=
      if pointerDepth type = 0 then s!"*({spelling}*){call}" else s!"({spelling}){call}"
    pure ⟨expr, .record, none⟩
  | some (.pointer row) => pure ⟨fill row.toNative value name spelling none, .pointer, none⟩
  | none => do
    Logged.warn s!"no script-to-native mapping for type `{type}`"
    return ⟨s!"nullptr /* unknown type: {type} */", .unknown, none⟩

end ScriptGlue.Mapping
