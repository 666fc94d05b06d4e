import ScriptGlue.Record.Shape
import ScriptGlue.Source.Scanner
import ScriptGlue.Text.Search

/-!
# Scraping properties

The source of a wrapper sets properties by calls `obj->Set(context, NAME, VALUE)` and by accessor
macros. Properties, and what their types are, are taken from those calls.
-/
namespace ScriptGlue

namespace RecordProperty

def isOpener : Token.Kind → Bool
  | .openParen | .openBrace | .openBracket => true
  | _ => false

def isCloser : Token.Kind → Bool
  | .closeParen | .closeBrace | .closeBracket => true
  | _ => false

/-- The tokens before the mark that closes a call, and those after it. All brackets count alike;
`depth` counts those still open inside the call. -/
def enclosed : Nat → List Token → Option (List Token × List Token)
  | _, [] => none
  | depth, t :: r =>
    let keep := Option.map fun (inner, rest) => (t :: inner, rest)
    if isOpener t.kind then keep (enclosed (depth + 1) r)
    else if isCloser t.kind then
      match depth with
      | 0 => some ([], r)
      | depth + 1 => keep (enclosed depth r)
    else keep (enclosed depth r)

theorem enclosed_rest_lt {depth : Nat} {ts inner rest : List Token}
    (h : enclosed depth ts = some (inner, rest)) : rest.length < ts.length := by
  induction ts generalizing depth inner with
  | nil => simp [enclosed] at h
  | cons t r ih =>
    have keep {d : Nat} {inner : List Token}
        (h : (enclosed d r).map (fun (inner, rest) => (t :: inner, rest)) = some (inner, rest)) :
        rest.length < (t :: r).length := by
      obtain ⟨⟨inner', rest'⟩, hr, he⟩ := Option.map_eq_some_iff.1 h
      cases he
      exact Nat.lt_succ_of_lt (ih hr)
    unfold enclosed at h
    split at h
    · exact keep h
    · split at h
      · split at h
        · cases h
          exact Nat.lt_succ_self _
        · exact keep h
      · exact keep h

/-- Puts a token into the first part. -/
def intoFirst (t : Token) : List (List Token) → List (List Token)
  | [] => [[t]]
  | part :: r => (t :: part) :: r

/-- Cuts at the commas that stand outside all brackets. -/
def splitCommas : Nat → List Token → List (List Token)
  | _, [] => [[]]
  | depth, t :: r =>
    if isOpener t.kind then intoFirst t (splitCommas (depth + 1) r)
    else if isCloser t.kind then intoFirst t (splitCommas (depth - 1) r)
    else if t.kind = .comma ∧ depth = 0 then [] :: splitCommas 0 r
    else intoFirst t (splitCommas depth r)

/-- The arguments of a call. Nothing after the last comma is no argument. -/
def arguments (inner : List Token) : List (List Token) :=
  let parts := splitCommas 0 inner
  if parts.getLast? = some [] then parts.dropLast else parts

def firstLiteral? (ts : List Token) : Option String := ts.findSome? (·.literal?)

def sourceText (source : List Char) (ts : List Token) : String :=
  match ts.head?, ts.getLast? with
  | some first, some last => (first.span.cover last.span).text source
  | _, _ => ""

def typeOfValue (expr : String) : String :=
  let e := Text.trim expr
  let has := Text.contains e
  let namesArray := "Array".toList.isSuffixOf e.toList && e.toList.all Text.isIdentRest
  if has "NewFromUtf8" || has "pfnSzFromIndex" || has "str2js" then "string"
  else if has "Number::New" || has "Integer::New" then "number"
  else if has "Boolean::New" then "boolean"
  else if has "vect2js" then "number[]"
  else if has "wrapEntity" then "Entity | null"
  else if has "arr2js" || has "Array::New" || namesArray then "number[]"
  else "unknown"

def typeOfGetter : String → String
  | "GETSTR" => "string"
  | "GETVEC3" => "number[]"
  | "GETBOOL" | "GETQBOOL" => "boolean"
  | _ => "number"

/-- The property that `obj->Set` with these arguments sets. -/
def ofSet? (source : List Char) : List (List Token) → Option RecordProperty
  | _ :: key :: value :: _ =>
    (firstLiteral? key).map fun name => ⟨name, typeOfValue (sourceText source value)⟩
  | _ => none

/-- The property that an accessor macro with these arguments defines: the getter follows the field,
which follows the name. -/
def ofAccessor? : List (List Token) → Option RecordProperty
  | [] => none
  | arg :: r =>
    match firstLiteral? arg with
    | none => ofAccessor? r
    | some name =>
      let getter := (r[1]?.bind fun arg => arg.findSome? (·.name?)).getD ""
      some ⟨name, typeOfGetter getter⟩

/-- Macros that define a property. -/
def accessorNames : List String :=
  ["ACCESSOR_T", "ACCESSORL_T", "ACCESSOR_RO_T", "ACCESSOR", "ACCESSORL"]

/-- What follows the opening parenthesis of `obj->Set(`. -/
def afterSet? : List Token → Option (List Token)
  | a :: b :: c :: d :: e :: r =>
    if a.isNamed "obj" ∧ b.kind = .other '-' ∧ c.kind = .other '>' ∧ d.isNamed "Set" ∧
        e.kind = .openParen then some r
    else none
  | _ => none

def afterAccessor? : List Token → Option (List Token)
  | a :: b :: r =>
    if a.name?.any accessorNames.contains ∧ b.kind = .openParen then some r else none
  | _ => none

/-- The call that the tokens start with, as the property it adds if any, and the tokens after it. -/
def call? (source : List Char) (ts : List Token) :
    Option (Option RecordProperty × List Token) :=
  match (afterSet? ts).bind (enclosed 0) with
  | some (inner, rest) => some (ofSet? source (arguments inner), rest)
  | none =>
    ((afterAccessor? ts).bind (enclosed 0)).map fun (inner, rest) =>
      (ofAccessor? (arguments inner), rest)

theorem afterSet?_length_le {ts r : List Token} (h : afterSet? ts = some r) :
    r.length ≤ ts.length := by
  unfold afterSet? at h
  split at h
  · split at h
    · cases h
      simp only [List.length_cons]
      omega
    · cases h
  · cases h

theorem afterAccessor?_length_le {ts r : List Token} (h : afterAccessor? ts = some r) :
    r.length ≤ ts.length := by
  unfold afterAccessor? at h
  split at h
  · split at h
    · cases h
      simp only [List.length_cons]
      omega
    · cases h
  · cases h

theorem call?_rest_lt {source : List Char} {ts rest : List Token} {p : Option RecordProperty}
    (h : call? source ts = some (p, rest)) : rest.length < ts.length := by
  unfold call? at h
  split at h
  · rename_i inner rest' hb
    cases h
    obtain ⟨r, hr, he⟩ := Option.bind_eq_some_iff.1 hb
    exact Nat.lt_of_lt_of_le (enclosed_rest_lt he) (afterSet?_length_le hr)
  · obtain ⟨⟨inner, rest'⟩, hb, he⟩ := Option.map_eq_some_iff.1 h
    cases he
    obtain ⟨r, hr, hn⟩ := Option.bind_eq_some_iff.1 hb
    exact Nat.lt_of_lt_of_le (enclosed_rest_lt hn) (afterAccessor?_length_le hr)

/-- The properties of all calls, in order. Calls inside the arguments of another do not count. -/
def ofTokens (source : List Char) (ts : List Token) : List RecordProperty :=
  match _h : call? source ts with
  | some (p, rest) => p.toList ++ ofTokens source rest
  | none =>
    match ts with
    | [] => []
    | _ :: r => ofTokens source r
termination_by ts.length
decreasing_by
  · exact call?_rest_lt _h
  · exact Nat.lt_succ_self _

/-- Keeps the first property of each name. -/
def keepFirst (seen : List String) : List RecordProperty → List RecordProperty
  | [] => []
  | p :: r => if seen.contains p.name then keepFirst seen r else p :: keepFirst (p.name :: seen) r

def ofSource (source : String) : List RecordProperty :=
  let chars := source.toList
  keepFirst [] (ofTokens chars (Token.scan chars 1).tokens)

end RecordProperty

end ScriptGlue
