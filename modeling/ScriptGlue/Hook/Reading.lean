import ScriptGlue.Hook.Catalogue
import ScriptGlue.Source.Reader
import ScriptGlue.Text.Search

/-!
# Reading the hook catalogue

The enumeration stands in a header as `enum NAME { NAME [= n], … }`, the signatures in a native
source as `NAME[] = { {"key", RETURN, count, {PARAM, …}}, … }`.
-/
namespace ScriptGlue.Hook

/-! ### The enumeration -/

/-- What follows `enum NAME {`. -/
def afterEnumHead (name : String) : List Token → Option (List Token)
  | a :: b :: c :: r =>
    if a.isNamed "enum" ∧ b.isNamed name ∧ c.kind = .openBrace then some r
    else afterEnumHead name (b :: c :: r)
  | _ => none

/-- An explicit value, if one follows; otherwise `value` stays. -/
def explicitValue (value : Nat) : Reader Nat := do
  if (← Reader.peek).kind = .equals then
    let _ ← Reader.advance
    let t ← Reader.advance
    match t.kind.toNat? with
    | some n => return n
    | none => Reader.refuse "integer" t
  else return value

/-- Reads one enumerator after its name: an explicit value and a comma, both optional. -/
def enumeratorTail (value : Nat) : Reader Nat := do
  let n ← explicitValue value
  Reader.skip .comma
  return n

theorem shrinks_enumeratorTail (value : Nat) : Reader.Shrinks (enumeratorTail value) := by
  refine Reader.shrinks_bind ?_ fun n =>
    Reader.shrinks_bind (Reader.shrinks_skip _) fun _ => Reader.shrinks_pure n
  refine Reader.shrinks_bind Reader.shrinks_peek fun t => ?_
  split
  · refine Reader.shrinks_bind Reader.shrinks_advance fun _ =>
      Reader.shrinks_bind Reader.shrinks_advance fun t => ?_
    split
    · exact Reader.shrinks_pure _
    · exact Reader.shrinks_refuse _ _
  · exact Reader.shrinks_pure _

/-- Reads enumerators up to the closing brace. Values count up from the last explicit one. Names
without the shared part are passed over and take no value, but an explicit value counts. -/
def enumerators (enum shared : String) (value : Nat) (s : Token.Stream) :
    Except Fault (List Enumerator) :=
  match s with
  | ⟨[], _⟩ => .error (.missingEnum enum)
  | ⟨t :: r, stop⟩ =>
    if t.kind = .closeBrace then .ok []
    else
      match t.name? with
      | none => enumerators enum shared value ⟨r, stop⟩
      | some name =>
        match _h : enumeratorTail value ⟨r, stop⟩ with
        | .error fault => .error fault
        | .ok (n, s') =>
          match Text.dropLead? shared name with
          | none => enumerators enum shared n s'
          | some short =>
            if n + 1 < Token.integerLimit then
              (enumerators enum shared (n + 1) s').map (⟨short, n, t.span.line⟩ :: ·)
            else .error .counterOverflow
termination_by s.tokens.length
decreasing_by
  all_goals simp only [List.length_cons]
  · omega
  · have := shrinks_enumeratorTail _ _h
    simp only at this
    omega
  · have := shrinks_enumeratorTail _ _h
    simp only at this
    omega

/-- Reads an enumeration, keeping the names that start with `shared`. -/
def readEnum (source enum shared : String) : Except Fault (List Enumerator) :=
  let s := Token.scan source.toList 1
  match afterEnumHead enum s.tokens with
  | some r => enumerators enum shared 0 { s with tokens := r }
  | none => .error (.missingEnum enum)

/-! ### The signature array -/

/-- What follows `NAME[] = {`. -/
def afterArrayHead (name : String) : List Token → Option (List Token)
  | a :: b :: c :: d :: e :: r =>
    if a.isNamed name ∧ b.kind = .openBracket ∧ c.kind = .closeBracket ∧ d.kind = .equals ∧
        e.kind = .openBrace then some r
    else afterArrayHead name (b :: c :: d :: e :: r)
  | _ => none

/-- The parameter codes up to the closing brace, and the tokens after it. Commas are optional. -/
def paramShapes (stop : Span) : List Token → Except Fault (List ParamShape × List Token)
  | [] => .error (.unexpectedToken "HAM_PARAM_* code" Token.Kind.stop.describe stop)
  | t :: r =>
    match t.kind with
    | .closeBrace => .ok ([], r)
    | .comma => paramShapes stop r
    | .ident code => (paramShapes stop r).map fun (shapes, rest) =>
        (ParamShape.ofCode code :: shapes, rest)
    | kind => .error (.unexpectedToken "HAM_PARAM_* code" kind.describe t.span)

theorem paramShapes_rest_le {stop : Span} {ts rest : List Token} {shapes : List ParamShape}
    (h : paramShapes stop ts = .ok (shapes, rest)) : rest.length ≤ ts.length := by
  induction ts generalizing shapes with
  | nil => simp [paramShapes] at h
  | cons t r ih =>
    rw [paramShapes] at h
    split at h
    · cases h
      exact Nat.le_succ _
    · exact Nat.le_succ_of_le (ih h)
    · match hr : paramShapes stop r with
      | .error _ => rw [hr] at h; cases h
      | .ok (shapes', rest') =>
        rw [hr] at h
        cases h
        exact Nat.le_succ_of_le (ih hr)
    · cases h

def params : Reader (List ParamShape) := fun s =>
  (paramShapes s.stop s.tokens).map fun (shapes, rest) => (shapes, { s with tokens := rest })

theorem shrinks_params : Reader.Shrinks params := by
  intro s shapes s' h
  unfold params at h
  match hr : paramShapes s.stop s.tokens with
  | .error _ => rw [hr] at h; cases h
  | .ok (shapes', rest) =>
    rw [hr] at h
    cases h
    exact paramShapes_rest_le hr

def returnShape : Reader ReturnShape := do
  let t ← Reader.advance
  match t.name? with
  | some code => return ReturnShape.ofCode code
  | none => Reader.refuse "HAM_RET_* code" t

def paramCount : Reader Nat := do
  let t ← Reader.advance
  match t.kind.toNat? with
  | some n => return n
  | none => Reader.refuse "parameter count" t

/-- Reads a row after its opening brace, with the comma after it if there is one. A row whose key is
no string, such as the one that ends the array, has no signature. -/
def row (line : Nat) : Reader (Option Signature) := do
  let key := (← Reader.advance).literal?
  let _ ← Reader.expect .comma
  let returns ← returnShape
  let _ ← Reader.expect .comma
  let count ← paramCount
  let _ ← Reader.expect .comma
  let _ ← Reader.expect .openBrace
  let shapes ← params
  let _ ← Reader.expect .closeBrace
  Reader.skip .comma
  return key.map fun key => ⟨key, returns, count, shapes, line⟩

theorem shrinks_returnShape : Reader.Shrinks returnShape := by
  refine Reader.shrinks_bind Reader.shrinks_advance fun t => ?_
  split
  · exact Reader.shrinks_pure _
  · exact Reader.shrinks_refuse _ _

theorem shrinks_paramCount : Reader.Shrinks paramCount := by
  refine Reader.shrinks_bind Reader.shrinks_advance fun t => ?_
  split
  · exact Reader.shrinks_pure _
  · exact Reader.shrinks_refuse _ _

theorem shrinks_row (line : Nat) : Reader.Shrinks (row line) :=
  Reader.shrinks_bind Reader.shrinks_advance fun _ =>
  Reader.shrinks_bind (Reader.shrinks_expect _) fun _ =>
  Reader.shrinks_bind shrinks_returnShape fun _ =>
  Reader.shrinks_bind (Reader.shrinks_expect _) fun _ =>
  Reader.shrinks_bind shrinks_paramCount fun _ =>
  Reader.shrinks_bind (Reader.shrinks_expect _) fun _ =>
  Reader.shrinks_bind (Reader.shrinks_expect _) fun _ =>
  Reader.shrinks_bind shrinks_params fun _ =>
  Reader.shrinks_bind (Reader.shrinks_expect _) fun _ =>
  Reader.shrinks_bind (Reader.shrinks_skip _) fun _ =>
  Reader.shrinks_pure _

/-- Reads rows up to the closing brace. A row without a signature takes no number. -/
def rows (array : String) (s : Token.Stream) : Except Fault (List Signature) :=
  match s with
  | ⟨[], _⟩ => .error (.missingArray array)
  | ⟨t :: r, stop⟩ =>
    if t.kind = .closeBrace then .ok []
    else if t.kind = .openBrace then
      match _h : row t.span.line ⟨r, stop⟩ with
      | .error fault => .error fault
      | .ok (signature, s') => (rows array s').map (signature.toList ++ ·)
    else .error (.unexpectedToken Token.Kind.openBrace.describe t.kind.describe t.span)
termination_by s.tokens.length
decreasing_by
  have := shrinks_row _ _h
  simp only [List.length_cons] at this ⊢
  omega

def readSignatures (source array : String) : Except Fault (List Signature) :=
  let s := Token.scan source.toList 1
  match afterArrayHead array s.tokens with
  | some r => rows array { s with tokens := r }
  | none => .error (.missingArray array)

/-! ### Both sources -/

/-- Where the sources keep what. -/
def hookEnum : String := "HamType"
def hookShared : String := "Ham_"
def resultEnum : String := "HamResult"
def resultShared : String := "HAM_"
def signatureArray : String := "g_hamFunctions"

/-- The enumerator that only ends the enumeration of hooks. -/
def endMarker : String := "EndMarker"

/-- The results that a source lists, or the default ones if it lists none that can be read. -/
def readResults (source : String) : Except Fault (List Enumerator) :=
  match readEnum source resultEnum resultShared with
  | .ok results => .ok results
  | .error .counterOverflow => .error .counterOverflow
  | .error _ => .ok defaultResults

/-- Reads and joins both sources. -/
def Catalogue.read (enumSource arraySource : String) : Except Fault Catalogue := do
  let hooks ← readEnum enumSource hookEnum hookShared
  let results ← readResults enumSource
  let signatures ← readSignatures arraySource signatureArray
  return join (hooks.filter (·.name ≠ endMarker)) signatures results

end ScriptGlue.Hook
