import ScriptGlue.Code.Layout

/-!
# Declarations for scripts

The forms of type declarations that are generated: function signatures, interfaces and enumerations.
-/
namespace ScriptGlue.Code

structure TypedParam where
  name : String
  type : String
  /-- The native type, which documentation shows. -/
  nativeType : String
  deriving DecidableEq, Repr

structure TypedSignature where
  name : String
  params : List TypedParam
  /-- Takes any further arguments. -/
  rest : Bool := false
  returns : String
  doc : Option String := none
  deriving DecidableEq, Repr

namespace TypedSignature

/-- The parameter that takes any further arguments. -/
def restParam : String := "...args: any[]"

def paramList (s : TypedSignature) : String :=
  ", ".intercalate
    (s.params.map (fun p => s!"{p.name}: {p.type}") ++ if s.rest then [restParam] else [])

def text (s : TypedSignature) : String := s!"{s.name}({s.paramList}): {s.returns}"

def methodLayout (s : TypedSignature) : Layout :=
  s.doc.toList.map (fun d => .line s!"/** {d} */") ++ [.line s!"{s.text};"]

def eventLayout (s : TypedSignature) : Layout :=
  [.line "/**", .line s!" * Event handler for {s.name}"] ++
    s.params.map (fun p => .line s!" * @param {p.name} {p.nativeType} - {p.type}") ++
    [.line " */", .line s!"\"{s.name}\": ({s.paramList}) => {s.returns};"]

end TypedSignature

inductive TypedMember where
  | property (name type : String)
  | method (s : TypedSignature)
  | event (s : TypedSignature)
  | comment (text : String)
  deriving DecidableEq, Repr

namespace TypedMember

def layout : TypedMember → Layout
  | property name type => [.line s!"{name}: {type};"]
  | method s => s.methodLayout
  | event s => s.eventLayout
  | comment text => [.line s!"// {text}"]

end TypedMember

structure TypedInterface where
  name : String
  members : List TypedMember
  /-- Members are set apart by empty lines. -/
  spaced : Bool := false
  deriving DecidableEq, Repr

namespace TypedInterface

def layout (i : TypedInterface) : Layout :=
  let members := i.members.map (·.layout)
  let body := if i.spaced then [Layout.blank].intercalate members else members.flatten
  Layout.block s!"interface {i.name}" body "\x7d"

end TypedInterface

/-- A named number with a remark behind it. -/
structure TypedValue where
  name : String
  value : Int
  comment : Option String := none
  deriving DecidableEq, Repr

structure TypedEnum where
  name : String
  isConst : Bool := false
  doc : Option String := none
  values : List TypedValue
  deriving DecidableEq, Repr

namespace TypedEnum

def valueLine (v : TypedValue) : Step :=
  match v.comment with
  | some comment => .line s!"{v.name} = {v.value}, // {comment}"
  | none => .line s!"{v.name} = {v.value},"

def layout (e : TypedEnum) : Layout :=
  let keyword := if e.isConst then "const enum" else "enum"
  e.doc.toList.map (fun d => .line s!"/** {d} */") ++
    Layout.block s!"{keyword} {e.name}" (e.values.map valueLine) "\x7d"

end TypedEnum

end ScriptGlue.Code
