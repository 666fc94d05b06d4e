import Mathlib.Algebra.Group.Int.Defs
import ScriptGlue.Proofs.Access.Scanning
import ScriptGlue.Proofs.Access.Walking
import ScriptGlue.Proofs.Access.Windows
import ScriptGlue.Proofs.Hook.Enumeration

/-!
# Reading hooks by position

The signatures and the enumeration of hooks are read by an index that starts behind the head of what
is read. Every access is inside, and all loops end. Only counting up the values of the enumeration
may leave the range of integers, and it does where an enumerator has the last value of the range.
-/
namespace ScriptGlue

open Token (Kind)

namespace ByPosition

/-- A step of a loop that a closing brace ends and that fails where the tokens end. -/
def upToBrace {σ α : Type} (tokens : List Token) (fault : Fault) (result : α)
    (body : Walker (σ ⊕ α)) : Walker (σ ⊕ α) := do
  if ← Walker.consume tokens .closeBrace then return .inr result
  else if ← Walker.atEnd tokens then Walker.fail fault
  else body

/-! ### Signatures -/

/-- What marks the beginning of an array of signatures. -/
def arrayTests (name : String) : List (Token → Bool) :=
  [(·.isNamed name), (·.kind = .openBracket), (·.kind = .closeBracket), (·.kind = .equals),
    (·.kind = .openBrace)]

section

variable (tokens : List Token)

def returnShape : Walker Hook.ReturnShape := do
  let t ← Walker.advance tokens
  match t.name? with
  | some code => return Hook.ReturnShape.ofCode code
  | none => Walker.refuse "HAM_RET_* code" t

def paramCount : Walker Nat := do
  let t ← Walker.advance tokens
  match t.kind.toNat? with
  | some n => return n
  | none => Walker.refuse "parameter count" t

/-- What a token between the braces adds to the codes read so far. -/
def paramToken (read : List Hook.ParamShape) (t : Token) :
    Walker (List Hook.ParamShape ⊕ List Hook.ParamShape) :=
  match t.kind with
  | .ident code => return .inl (read ++ [Hook.ParamShape.ofCode code])
  | .comma => return .inl read
  | _ => Walker.refuse "HAM_PARAM_* code" t

def paramStep (read : List Hook.ParamShape) :
    Walker (List Hook.ParamShape ⊕ List Hook.ParamShape) := do
  if ← Walker.consume tokens .closeBrace then return .inr read
  else paramToken read (← Walker.advance tokens)

/-- Reads a row after its opening brace, with the comma after it if there is one. -/
def row (line : Nat) : Walker (Option Hook.Signature) := do
  let t ← Walker.advance tokens
  let key := t.literal?
  let _ ← Walker.expect tokens .comma
  let returns ← returnShape tokens
  let _ ← Walker.expect tokens .comma
  let count ← paramCount tokens
  let _ ← Walker.expect tokens .comma
  let _ ← Walker.expect tokens .openBrace
  let shapes ← Walker.loop (paramStep tokens) []
  let _ ← Walker.expect tokens .closeBrace
  Walker.skip tokens .comma
  return key.map fun key => ⟨key, returns, count, shapes, line⟩

def rowStep (array : String) (read : List Hook.Signature) :
    Walker (List Hook.Signature ⊕ List Hook.Signature) :=
  upToBrace tokens (.missingArray array) read do
    let brace ← Walker.expect tokens .openBrace
    let signature ← row tokens brace.span.line
    return .inl (read ++ signature.toList)

end

def signatures (source array : String) : Checked (Except Fault (List Hook.Signature)) := do
  let tokens ← tokens source.toList 1
  match ← firstMatch (arrayTests array) tokens with
  | none => return .error (.missingArray array)
  | some start =>
    let out ← Walker.loop (rowStep tokens array) [] (start + 5)
    return out.map Prod.fst

/-! ### The enumeration -/

/-- What marks the beginning of an enumeration. -/
def enumTests (name : String) : List (Token → Bool) :=
  [(·.isNamed "enum"), (·.isNamed name), (·.kind = .openBrace)]

def countUp (n : Nat) : Checked Nat :=
  if n + 1 < Token.integerLimit then pure (n + 1) else throw .overflow

section

variable (tokens : List Token)

/-- An explicit value, if one follows; otherwise `value` stays. -/
def explicitValue (value : Nat) : Walker Nat := do
  if ← Walker.consume tokens .equals then
    let t ← Walker.advance tokens
    match t.kind.toNat? with
    | some n => return n
    | none => Walker.refuse "integer" t
  else return value

/-- Takes what follows the name of an enumerator, with the value handed on and the enumerators read
so far. -/
def enumTail (shared : String) (value : Nat) (read : List Hook.Enumerator) (name : String)
    (line : Nat) : Walker ((Nat × List Hook.Enumerator) ⊕ List Hook.Enumerator) := do
  let n ← explicitValue tokens value
  match Text.dropLead? shared name with
  | none =>
    Walker.skip tokens .comma
    return .inl (n, read)
  | some short =>
    let next ← Walker.check (countUp n)
    Walker.skip tokens .comma
    return .inl (next, read ++ [⟨short, n, line⟩])

def enumStep (enum shared : String) :
    Nat × List Hook.Enumerator → Walker ((Nat × List Hook.Enumerator) ⊕ List Hook.Enumerator)
  | (value, read) => upToBrace tokens (.missingEnum enum) read do
    let t ← Walker.advance tokens
    match t.name? with
    | none => return .inl (value, read)
    | some name => enumTail tokens shared value read name t.span.line

end

/-- Reads an enumeration, keeping the names that start with `shared`. -/
def enumeration (source enum shared : String) :
    Checked (Except Fault (List Hook.Enumerator)) := do
  let tokens ← tokens source.toList 1
  match ← firstMatch (enumTests enum) tokens with
  | none => return .error (.missingEnum enum)
  | some start =>
    let out ← Walker.loop (enumStep tokens enum shared) (0, []) (start + 3)
    return out.map Prod.fst

/-! ### Heads -/

theorem afterArrayHead_eq (name : String) (ts : List Token) : Hook.afterArrayHead name ts =
    (matchIndex (arrayTests name) ts).bind fun i => some ((ts.drop i).drop 5) := by
  refine eq_matchIndex _ (fun ts => some (ts.drop 5)) rfl (fun t r => ?_) ts
  match r with
  | [] | [_] | [_, _] | [_, _, _] => simp [Hook.afterArrayHead, startsWith, arrayTests]
  | b :: c :: d :: e :: r => simp [Hook.afterArrayHead, startsWith, arrayTests]

theorem afterEnumHead_eq (name : String) (ts : List Token) : Hook.afterEnumHead name ts =
    (matchIndex (enumTests name) ts).bind fun i => some ((ts.drop i).drop 3) := by
  refine eq_matchIndex _ (fun ts => some (ts.drop 3)) rfl (fun t r => ?_) ts
  match r with
  | [] | [_] => simp [Hook.afterEnumHead, startsWith, enumTests]
  | b :: c :: r => simp [Hook.afterEnumHead, startsWith, enumTests]

/-- What is found behind a window is the end of the tokens. -/
theorem suffix_of_window {tests : List (Token → Bool)} {ts r : List Token} {n : Nat}
    (found : ((matchIndex tests ts).bind fun i => some ((ts.drop i).drop n)) = some r) :
    r <:+ ts := by
  obtain ⟨i, -, same⟩ := Option.bind_eq_some_iff.mp found
  obtain rfl := Option.some.inj same
  exact (List.drop_suffix n _).trans (List.drop_suffix i ts)

/-! ### Braces -/

section

variable {σ α : Type} {tokens : List Token} {fault : Fault} {result : α} {body : Walker (σ ⊕ α)}
  {s : Token.Stream} {pos : Nat} (stands : s.StandsAt tokens pos)
include stands

theorem upToBrace_end (ended : s.current.kind = .stop) :
    upToBrace tokens fault result body pos = pure (.error fault) := by
  have notClose : s.current.kind ≠ .closeBrace := by simp [ended]
  rw [upToBrace, Walker.bind_ok (stands.consume_other notClose), if_neg Bool.false_ne_true,
    Walker.bind_ok stands.atEnd_eq, if_pos (decide_eq_true ended)]
  rfl

theorem upToBrace_close (closes : s.current.kind = .closeBrace) :
    ∃ next, upToBrace tokens fault result body pos = pure (.ok (.inr result, next)) := by
  obtain ⟨next, -, taken⟩ := stands.consume_eq closes
  refine ⟨next, ?_⟩
  rw [upToBrace, Walker.bind_ok taken, if_pos rfl]
  rfl

theorem upToBrace_body (notClose : s.current.kind ≠ .closeBrace) (solid : s.current.kind ≠ .stop) :
    upToBrace tokens fault result body pos = body pos := by
  rw [upToBrace, Walker.bind_ok (stands.consume_other notClose), if_neg Bool.false_ne_true,
    Walker.bind_ok stands.atEnd_eq, if_neg (by simpa using solid)]

end

/-! ### Reading signatures -/

section

variable {tokens : List Token}

theorem returnShape_tracks : Tracks tokens (returnShape tokens) Hook.returnShape := by
  refine Tracks.advance.bind fun t => ?_
  cases t.name? with
  | some code => exact .pure _
  | none => exact .refuse _ t

theorem paramCount_tracks : Tracks tokens (paramCount tokens) Hook.paramCount := by
  refine Tracks.advance.bind fun t => ?_
  cases t.kind.toNat? with
  | some n => exact .pure _
  | none => exact .refuse _ t

/-- Parameter codes are read up to the closing brace; the mark of the end stops the index. -/
theorem params_follows {s : Token.Stream} {pos : Nat} (stands : s.StandsAt tokens pos)
    (read : List Hook.ParamShape) :
    Follows tokens (Walker.loop (paramStep tokens) read pos)
      ((Hook.paramShapes s.stop s.tokens).map fun (shapes, rest) =>
        (read ++ shapes, { s with tokens := rest })) := by
  obtain ⟨ts, stop⟩ := s
  induction ts generalizing pos read with
  | nil =>
    obtain ⟨next, -, taken⟩ := stands.advance_eq
    rw [Walker.loop_error]
    · exact .fails _
    · rw [paramStep, Walker.bind_ok (stands.consume_other Kind.noConfusion),
        if_neg Bool.false_ne_true, Walker.bind_ok taken]
      rfl
  | cons t r ih =>
    by_cases closes : t.kind = .closeBrace
    · obtain ⟨next, behind, taken⟩ := stands.consume_eq closes
      have done : paramStep tokens read pos = pure (.ok (.inr read, next)) := by
        rw [paramStep, Walker.bind_ok taken, if_pos rfl]
        rfl
      rw [Walker.loop_done done]
      simp only [Hook.paramShapes, closes, Except.map, List.append_nil]
      exact .takes read behind
    · obtain ⟨next, behind, taken⟩ := stands.advance_eq
      have step : paramStep tokens read pos = paramToken read t next := by
        rw [paramStep, Walker.bind_ok (stands.consume_other closes), if_neg Bool.false_ne_true,
          Walker.bind_ok taken]
        rfl
      rw [Hook.paramShapes]
      cases kind : t.kind with
      | closeBrace => exact absurd kind closes
      | comma =>
        rw [paramToken, kind] at step
        rw [Walker.loop_next step]
        exact ih read behind
      | ident code =>
        rw [paramToken, kind] at step
        rw [Walker.loop_next step]
        have later := ih (read ++ [Hook.ParamShape.ofCode code]) behind
        cases shapes : Hook.paramShapes stop r <;>
          simpa [shapes, Except.map, List.append_assoc] using later
      | _ =>
        rw [paramToken, kind] at step
        rw [Walker.loop_error step]
        simp only [← kind]
        exact .fails _

theorem params_tracks : Tracks tokens (Walker.loop (paramStep tokens) []) Hook.params :=
  fun _ _ stands => params_follows stands []

theorem row_tracks (line : Nat) : Tracks tokens (row tokens line) (Hook.row line) :=
  Tracks.advance.bind fun _ =>
  (Tracks.expect .comma).bind fun _ =>
  returnShape_tracks.bind fun _ =>
  (Tracks.expect .comma).bind fun _ =>
  paramCount_tracks.bind fun _ =>
  (Tracks.expect .comma).bind fun _ =>
  (Tracks.expect .openBrace).bind fun _ =>
  params_tracks.bind fun _ =>
  (Tracks.expect .closeBrace).bind fun _ =>
  (Tracks.skip .comma).bind fun _ =>
  Tracks.pure _

end

/-- Rows are read up to the closing brace, each by what one row is read by. -/
theorem rows_yields {array : String} {all s : Token.Stream}
    (solid : ∀ t ∈ all.tokens, t.kind ≠ .stop) {pos : Nat} (stands : s.StandsAt all.all pos)
    (read : List Hook.Signature) :
    Yields (Walker.loop (rowStep all.all array) read pos)
      ((Hook.rows array s).map (read ++ ·)) := by
  have inside {t : Token} {r : List Token} {stop : Span} {pos : Nat}
      (stands : Token.Stream.StandsAt ⟨t :: r, stop⟩ all.all pos) : t.kind ≠ .stop :=
    solid t (Token.Stream.mem_of_standsAt stands List.mem_cons_self)
  -- by the cases of the reader without an index, which the loop goes along with
  fun_induction Hook.rows array s generalizing pos read with
  | case1 stop => exact ⟨_, Walker.loop_error (upToBrace_end stands rfl), rfl⟩
  | case2 t r stop closes =>
    obtain ⟨next, done⟩ := upToBrace_close stands closes
    exact ⟨.ok (read, next), Walker.loop_done done, by simp [Except.map]⟩
  | case3 t r stop notClose opens fault failed =>
    have opened := Tracks.expect .openBrace stands
    rw [Reader.expect_eq opens] at opened
    obtain ⟨next, behind, taken⟩ := opened.ok
    have refused := row_tracks t.span.line behind
    rw [failed] at refused
    refine ⟨_, Walker.loop_error ?_, rfl⟩
    rw [rowStep, upToBrace_body stands notClose (inside stands), Walker.bind_ok taken,
      Walker.bind_error refused.error]
  | case4 t r stop notClose opens signature s' done ih =>
    have opened := Tracks.expect .openBrace stands
    rw [Reader.expect_eq opens] at opened
    obtain ⟨next, behind, taken⟩ := opened.ok
    have follows := row_tracks t.span.line behind
    rw [done] at follows
    obtain ⟨last, there, passed⟩ := follows.ok
    have step : rowStep all.all array read pos =
        pure (.ok (.inl (read ++ signature.toList), last)) := by
      rw [rowStep, upToBrace_body stands notClose (inside stands), Walker.bind_ok taken,
        Walker.bind_ok passed]
      rfl
    rw [Walker.loop_next step]
    have later := ih there (read ++ signature.toList)
    cases rest : Hook.rows array s' <;> simpa [rest, Except.map, List.append_assoc] using later
  | case5 t r stop notClose notOpen =>
    have refused := Tracks.expect .openBrace stands
    rw [Reader.expect_other notOpen] at refused
    refine ⟨_, Walker.loop_error ?_, rfl⟩
    rw [rowStep, upToBrace_body stands notClose (inside stands), Walker.bind_error refused.error]

/-- What is found by a window of tests is followed by what is left behind the window. -/
theorem standsAt_window {tests : List (Token → Bool)} (filled : tests ≠ []) {s : Token.Stream}
    {i : Nat} (found : matchIndex tests s.tokens = some i) :
    Token.Stream.StandsAt { s with tokens := (s.tokens.drop i).drop tests.length } s.all
      (i + tests.length) := by
  rw [List.drop_drop]
  exact s.standsAt_drop (matchIndex_le filled found)

theorem map_nil_append {α : Type} (read : Except Fault (List α)) :
    read.map ([] ++ ·) = read := by
  cases read <;> rfl

/-- Reading signatures by index comes to the same end. -/
theorem signatures_eq (source array : String) :
    signatures source array = pure (Hook.readSignatures source array) := by
  have filled : arrayTests array ≠ [] := by simp [arrayTests]
  have fails : ∀ test ∈ arrayTests array, ∀ stop, test ⟨.stop, stop⟩ = false := by
    simp [arrayTests, Token.isNamed, Token.name?, Kind.name?]
  have solid : ∀ t ∈ (Token.scan source.toList 1).tokens, t.kind ≠ .stop :=
    fun t member => (Token.located_scan member).kind_ne_stop
  rw [signatures, tokens_eq, pure_bind, firstMatch_eq filled, pure_bind,
    matchIndex_all filled fails, Hook.readSignatures]
  simp only [afterArrayHead_eq]
  cases found : matchIndex (arrayTests array) (Token.scan source.toList 1).tokens with
  | none => rfl
  | some start =>
    obtain ⟨out, walked, came⟩ := rows_yields solid (standsAt_window filled found) []
    change Walker.loop (rowStep _ array) [] (start + 5) = pure out at walked
    rw [map_nil_append] at came
    simp only [walked, pure_bind, came]
    rfl

/-! ### Reading the enumeration -/

theorem explicitValue_tracks {tokens : List Token} (value : Nat) :
    Tracks tokens (explicitValue tokens value) (Hook.explicitValue value) := by
  refine Tracks.consume (Tracks.advance.bind fun t => ?_) (Tracks.pure value)
  cases t.kind.toNat? with
  | some n => exact .pure n
  | none => exact .refuse "integer" t

section

variable {tokens : List Token} {s s' : Token.Stream} {pos value n : Nat}
  (stands : s.StandsAt tokens pos)
include stands

/-- By index, an explicit value fails as it does in a stream. -/
theorem explicitValue_error {fault : Fault}
    (failed : Hook.enumeratorTail value s = .error fault) :
    explicitValue tokens value pos = pure (.error fault) := by
  have follows := explicitValue_tracks value stands
  cases read : Hook.explicitValue value s with
  | error other =>
    rw [read] at follows
    simp only [Hook.enumeratorTail, bind, StateT.bind, read, Except.bind] at failed
    obtain rfl := Except.error.inj failed
    exact follows.error
  | ok result =>
    obtain ⟨n, t⟩ := result
    obtain ⟨t', skipped⟩ := Reader.skip_ok .comma t
    rw [Hook.enumeratorTail_eq read skipped] at failed
    cases failed

/-- By index, an explicit value is read with the same number and leaves the same tokens. -/
theorem explicitValue_ok (done : Hook.enumeratorTail value s = .ok (n, s')) :
    ∃ mid last, explicitValue tokens value pos = pure (.ok (n, mid)) ∧
      Walker.skip tokens .comma mid = pure (.ok ((), last)) ∧ s'.StandsAt tokens last := by
  obtain ⟨m, t, read, done⟩ := Reader.bind_ok done
  obtain ⟨_, t', skipped, done⟩ := Reader.bind_ok done
  cases done
  have follows := explicitValue_tracks value stands
  rw [read] at follows
  obtain ⟨mid, there, walked⟩ := follows.ok
  have follows := Tracks.skip .comma there
  rw [skipped] at follows
  obtain ⟨last, behind, passed⟩ := follows.ok
  exact ⟨mid, last, walked, passed, behind⟩

end

/-- What counting up comes to: it stops where a value leaves the range of integers. -/
inductive Counts (x : Checked (Except Fault (List Hook.Enumerator × Nat))) :
    Except Fault (List Hook.Enumerator) → Prop
  | stops (overflows : x = throw .overflow) : Counts x (.error .counterOverflow)
  | comes {y : Except Fault (List Hook.Enumerator)} (yields : Yields x y)
    (bounded : y ≠ .error .counterOverflow) : Counts x y

/-- An enumerator is taken by what takes what follows its name. -/
theorem enumStep_named {tokens r : List Token} {t : Token} {stop : Span} {pos : Nat}
    (stands : Token.Stream.StandsAt ⟨t :: r, stop⟩ tokens pos) (notClose : t.kind ≠ .closeBrace)
    (solid : t.kind ≠ .stop) {name : String} (named : t.name? = some name) {enum shared : String}
    {value : Nat} {read : List Hook.Enumerator} :
    ∃ next, Token.Stream.StandsAt ⟨r, stop⟩ tokens next ∧
      enumStep tokens enum shared (value, read) pos =
        enumTail tokens shared value read name t.span.line next := by
  obtain ⟨next, behind, taken⟩ := stands.advance_eq
  refine ⟨next, behind, ?_⟩
  rw [enumStep, upToBrace_body stands notClose solid, Walker.bind_ok taken]
  simp only [Token.Stream.current, List.headD_cons, named]

section

variable {tokens : List Token} {shared name : String} {s s' : Token.Stream} {pos value n line : Nat}
  {read : List Hook.Enumerator} (stands : s.StandsAt tokens pos)
include stands

theorem enumTail_error {fault : Fault} (failed : Hook.enumeratorTail value s = .error fault) :
    enumTail tokens shared value read name line pos = pure (.error fault) := by
  rw [enumTail, Walker.bind_error (explicitValue_error stands failed)]

/-- An enumerator without the shared part hands its value on. -/
theorem enumTail_other (tail : Hook.enumeratorTail value s = .ok (n, s'))
    (other : Text.dropLead? shared name = none) :
    ∃ last, enumTail tokens shared value read name line pos = pure (.ok (.inl (n, read), last)) ∧
      s'.StandsAt tokens last := by
  obtain ⟨mid, last, walked, passed, there⟩ := explicitValue_ok stands tail
  refine ⟨last, ?_, there⟩
  rw [enumTail, Walker.bind_ok walked, other]
  simp only
  rw [Walker.bind_ok passed]
  rfl

/-- An enumerator with the shared part is read, and the value after its own is handed on. -/
theorem enumTail_own (tail : Hook.enumeratorTail value s = .ok (n, s')) {short : String}
    (own : Text.dropLead? shared name = some short) (counted : countUp n = pure (n + 1)) :
    ∃ last, enumTail tokens shared value read name line pos =
        pure (.ok (.inl (n + 1, read ++ [⟨short, n, line⟩]), last)) ∧
      s'.StandsAt tokens last := by
  obtain ⟨mid, last, walked, passed, there⟩ := explicitValue_ok stands tail
  refine ⟨last, ?_, there⟩
  rw [enumTail, Walker.bind_ok walked, own]
  simp only
  rw [Walker.bind_ok (Walker.check_eq counted), Walker.bind_ok passed]
  rfl

/-- There is no value after the greatest one to hand on. -/
theorem enumTail_overflow (tail : Hook.enumeratorTail value s = .ok (n, s')) {short : String}
    (own : Text.dropLead? shared name = some short) (counted : countUp n = throw .overflow) :
    enumTail tokens shared value read name line pos = throw .overflow := by
  obtain ⟨mid, last, walked, -, -⟩ := explicitValue_ok stands tail
  rw [enumTail, Walker.bind_ok walked, own]
  simp only
  rw [Walker.bind_trap (Walker.check_trap counted)]

end

/-- A token that stands between enumerators is passed over. -/
theorem enumStep_unnamed {tokens r : List Token} {t : Token} {stop : Span} {pos : Nat}
    (stands : Token.Stream.StandsAt ⟨t :: r, stop⟩ tokens pos) (notClose : t.kind ≠ .closeBrace)
    (solid : t.kind ≠ .stop) (unnamed : t.name? = none) {enum shared : String} {value : Nat}
    {read : List Hook.Enumerator} :
    ∃ next, Token.Stream.StandsAt ⟨r, stop⟩ tokens next ∧
      enumStep tokens enum shared (value, read) pos = pure (.ok (.inl (value, read), next)) := by
  obtain ⟨next, behind, taken⟩ := stands.advance_eq
  refine ⟨next, behind, ?_⟩
  rw [enumStep, upToBrace_body stands notClose solid, Walker.bind_ok taken]
  simp only [Token.Stream.current, List.headD_cons, unnamed]
  rfl

/-- Enumerators are read up to the closing brace, as far as they can be counted. -/
theorem enumerators_counts {enum shared : String} {all s : Token.Stream}
    (solid : ∀ t ∈ all.tokens, t.kind ≠ .stop) {pos : Nat} (stands : s.StandsAt all.all pos)
    (value : Nat) (read : List Hook.Enumerator) :
    Counts (Walker.loop (enumStep all.all enum shared) (value, read) pos)
      ((Hook.enumerators enum shared value s).map (read ++ ·)) := by
  have inside {t : Token} {r : List Token} {stop : Span} {pos : Nat}
      (stands : Token.Stream.StandsAt ⟨t :: r, stop⟩ all.all pos) : t.kind ≠ .stop :=
    solid t (Token.Stream.mem_of_standsAt stands List.mem_cons_self)
  -- by the cases of the reader without an index; where it gives up counting, the loop overflows
  fun_induction Hook.enumerators enum shared value s generalizing pos read with
  | case1 =>
    exact .comes ⟨_, Walker.loop_error (upToBrace_end stands rfl), rfl⟩ (by simp [Except.map])
  | case2 value t r stop closes =>
    obtain ⟨next, done⟩ := upToBrace_close stands closes
    exact .comes ⟨.ok (read, next), Walker.loop_done done, by simp [Except.map]⟩
      (by simp [Except.map])
  | case3 value t r stop notClose unnamed ih =>
    obtain ⟨next, behind, step⟩ := enumStep_unnamed stands notClose (inside stands) unnamed
    rw [Walker.loop_next step]
    exact ih behind read
  | case4 value t r stop notClose name named fault failed =>
    obtain ⟨next, behind, step⟩ := enumStep_named stands notClose (inside stands) named
    refine .comes ⟨_, Walker.loop_error (step.trans (enumTail_error behind failed)), rfl⟩ ?_
    simpa [Except.map] using Hook.enumeratorTail_error failed
  | case5 value t r stop notClose name named n s' tail other ih =>
    obtain ⟨next, behind, step⟩ := enumStep_named stands notClose (inside stands) named
    obtain ⟨last, taken, there⟩ := enumTail_other behind tail other
    rw [Walker.loop_next (step.trans taken)]
    exact ih there read
  | case6 value t r stop notClose name named n s' tail short own small ih =>
    obtain ⟨next, behind, step⟩ := enumStep_named stands notClose (inside stands) named
    obtain ⟨last, taken, there⟩ := enumTail_own behind tail own (if_pos small)
    rw [Walker.loop_next (step.trans taken)]
    have later := ih there (read ++ [⟨short, n, t.span.line⟩])
    cases rest : Hook.enumerators enum shared (n + 1) s' <;>
      simpa [rest, Except.map, List.append_assoc] using later
  | case7 value t r stop notClose name named n s' tail short own large =>
    obtain ⟨next, behind, step⟩ := enumStep_named stands notClose (inside stands) named
    -- the value itself is kept, but there is no next one to hand on
    exact .stops (Walker.loop_trap (step.trans (enumTail_overflow behind tail own (if_neg large))))

end ByPosition

/-! ### The last value -/

namespace Hook

/-- The enumerators with the shared part that stand before an error or the closing brace, with the
values that they have without a limit. -/
def reached (shared : String) (value : Nat) (s : Token.Stream) : List Enumerator :=
  match s with
  | ⟨[], _⟩ => []
  | ⟨t :: r, stop⟩ =>
    if t.kind = .closeBrace then []
    else
      match t.name? with
      | none => reached shared value ⟨r, stop⟩
      | some name =>
        match _h : enumeratorTail value ⟨r, stop⟩ with
        | .error _ => []
        | .ok (n, s') =>
          match Text.dropLead? shared name with
          | none => reached shared n s'
          | some short => ⟨short, n, t.span.line⟩ :: reached shared (n + 1) s'
termination_by s.tokens.length
decreasing_by
  all_goals simp only [List.length_cons]
  · omega
  · have := shrinks_enumeratorTail _ _h
    simp only at this
    omega
  · have := shrinks_enumeratorTail _ _h
    simp only at this
    omega

/-- The enumerators of an enumeration that are reached when it is read. -/
def reachedIn (source enum shared : String) : List Enumerator :=
  let s := Token.scan source.toList 1
  match afterEnumHead enum s.tokens with
  | some r => reached shared 0 { s with tokens := r }
  | none => []

section

variable {shared name : String} {value n : Nat} {t : Token} {r : List Token} {stop : Span}
  {s' : Token.Stream}

theorem reached_other (notClose : t.kind ≠ .closeBrace) (unnamed : t.name? = none) :
    reached shared value ⟨t :: r, stop⟩ = reached shared value ⟨r, stop⟩ := by
  rw [reached, if_neg notClose]
  simp only [unnamed]

/-- A name with the shared part is reached, and counting goes on behind its tail. -/
theorem reached_named (named : t.name? = some name)
    (tail : enumeratorTail value ⟨r, stop⟩ = .ok (n, s')) :
    reached shared value ⟨t :: r, stop⟩ =
      match Text.dropLead? shared name with
      | none => reached shared n s'
      | some short => ⟨short, n, t.span.line⟩ :: reached shared (n + 1) s' := by
  have notClose : t.kind ≠ .closeBrace := by simp [Token.name?_eq_some_iff.mp named]
  rw [reached, if_neg notClose]
  simp only [named]
  split
  · rename_i failed
    rw [tail] at failed
    cases failed
  · rename_i done
    rw [tail] at done
    cases done
    rfl

theorem reached_refused (named : t.name? = some name) {fault : Fault}
    (failed : enumeratorTail value ⟨r, stop⟩ = .error fault) :
    reached shared value ⟨t :: r, stop⟩ = [] := by
  have notClose : t.kind ≠ .closeBrace := by simp [Token.name?_eq_some_iff.mp named]
  rw [reached, if_neg notClose]
  simp only [named]
  split
  · rfl
  · rename_i done
    rw [failed] at done
    cases done

end

/-- Behind the name of an enumerator, its value is the one handed on, or that of the number taken
with an equals sign in front. -/
theorem enumeratorTail_ok {value n : Nat} {s s' : Token.Stream}
    (done : enumeratorTail value s = .ok (n, s')) :
    ∃ taken, s.tokens = taken ++ s'.tokens ∧ (n = value ∨ ∃ mark number,
      [mark, number] <+: taken ∧ mark.kind = .equals ∧ number.kind.toNat? = some n) := by
  obtain ⟨m, t, read, done⟩ := Reader.bind_ok done
  obtain ⟨_, t', skipped, done⟩ := Reader.bind_ok done
  cases done
  obtain ⟨behind, left⟩ := (Tracks.skip .comma).suffix skipped
  rcases explicitValue_cases value s.tokens s.stop with ⟨-, same⟩ |
    ⟨mark, number, r, literal, whole, equals, reads, same⟩ | ⟨expected, found, span, same⟩
  · obtain ⟨rfl, rfl⟩ := Prod.mk.inj (Except.ok.inj (same.symm.trans read))
    exact ⟨behind, left.symm, .inl rfl⟩
  · obtain ⟨rfl, rfl⟩ := Prod.mk.inj (Except.ok.inj (same.symm.trans read))
    refine ⟨[mark, number] ++ behind, ?_, .inr ⟨mark, number, ?_, equals, reads⟩⟩
    · rw [whole, List.append_assoc, left]
      rfl
    · exact List.prefix_append _ _
  · cases same.symm.trans read

/-- The value of an enumerator is the one handed on or a literal, so it is within the limit. -/
theorem enumeratorTail_lt {value n : Nat} {s s' : Token.Stream}
    (bound : value < Token.integerLimit) (done : enumeratorTail value s = .ok (n, s')) :
    n < Token.integerLimit := by
  obtain ⟨taken, -, rfl | ⟨mark, number, -, -, reads⟩⟩ := enumeratorTail_ok done
  · exact bound
  · exact toNat?_lt reads

/-- The values leave the range of integers exactly if an enumerator with the last value is
reached. -/
theorem enumerators_overflow_iff {enum shared : String} {value : Nat} {s : Token.Stream}
    (bound : value < Token.integerLimit) :
    enumerators enum shared value s = .error .counterOverflow ↔
      ∃ e ∈ reached shared value s, e.value = 2 ^ 63 - 1 := by
  fun_induction enumerators enum shared value s with
  | case1 => simp [reached]
  | case2 value t r stop closes => simp [reached, closes]
  | case3 value t r stop notClose unnamed ih =>
    rw [reached_other notClose unnamed]
    exact ih bound
  | case4 value t r stop notClose name named fault failed =>
    rw [reached_refused named failed]
    simpa using enumeratorTail_error failed
  | case5 value t r stop notClose name named n s' tail other ih =>
    rw [reached_named named tail, other]
    exact ih (enumeratorTail_lt bound tail)
  | case6 value t r stop notClose name named n s' tail short own small ih =>
    have notLast : (n : Int) ≠ 2 ^ 63 - 1 := by
      unfold Token.integerLimit at small
      omega
    rw [reached_named named tail, own]
    simp only [List.exists_mem_cons_iff, notLast, false_or, ← ih small]
    cases enumerators enum shared (n + 1) s' <;> simp [Except.map]
  | case7 value t r stop notClose name named n s' tail short own large =>
    have last : (n : Int) = 2 ^ 63 - 1 := by
      have inside := enumeratorTail_lt bound tail
      unfold Token.integerLimit at large inside
      omega
    rw [reached_named named tail, own]
    simp [last]

/-- If reading succeeds then all enumerators that are reached are read. -/
theorem reached_of_ok {enum shared : String} {value : Nat} {s : Token.Stream}
    {es : List Enumerator} (read : enumerators enum shared value s = .ok es) :
    reached shared value s = es := by
  fun_induction enumerators enum shared value s generalizing es with
  | case1 => cases read
  | case2 value t r stop closes =>
    cases read
    simp [reached, closes]
  | case3 value t r stop notClose unnamed ih =>
    exact (reached_other notClose unnamed).trans (ih read)
  | case4 => cases read
  | case5 value t r stop notClose name named n s' tail other ih =>
    rw [reached_named named tail, other]
    exact ih read
  | case6 value t r stop notClose name named n s' tail short own small ih =>
    rw [reached_named named tail, own]
    cases rest : enumerators enum shared (n + 1) s' with
    | error fault =>
      rw [rest] at read
      cases read
    | ok others =>
      rw [rest] at read
      cases read
      exact congrArg _ (ih rest)
  | case7 => cases read

theorem reachedIn_of_ok {source enum shared : String} {es : List Enumerator}
    (read : readEnum source enum shared = .ok es) : reachedIn source enum shared = es := by
  obtain ⟨r, head, done⟩ := readEnum_ok_iff.mp read
  simp only [reachedIn, head]
  exact reached_of_ok done

/-- Reading fails for its counter where an enumerator with the greatest value is reached. -/
theorem readEnum_overflow_iff (source enum shared : String) :
    readEnum source enum shared = .error .counterOverflow ↔
      ∃ e ∈ reachedIn source enum shared, e.value = 2 ^ 63 - 1 := by
  rw [readEnum, reachedIn]
  cases afterEnumHead enum (Token.scan source.toList 1).tokens with
  | none => simp
  | some r => exact enumerators_overflow_iff (by decide)

end Hook

namespace ByPosition

/-- Reading the enumeration by index comes to the same end, unless it cannot be counted. -/
theorem enumeration_cases (source enum shared : String) :
    (Hook.readEnum source enum shared = .error .counterOverflow ∧
        enumeration source enum shared = throw .overflow) ∨
      (Hook.readEnum source enum shared ≠ .error .counterOverflow ∧
        enumeration source enum shared = pure (Hook.readEnum source enum shared)) := by
  have filled : enumTests enum ≠ [] := by simp [enumTests]
  have fails : ∀ test ∈ enumTests enum, ∀ stop, test ⟨.stop, stop⟩ = false := by
    simp [enumTests, Token.isNamed, Token.name?, Kind.name?]
  have solid : ∀ t ∈ (Token.scan source.toList 1).tokens, t.kind ≠ .stop :=
    fun t member => (Token.located_scan member).kind_ne_stop
  rw [enumeration, tokens_eq, pure_bind, firstMatch_eq filled, pure_bind,
    matchIndex_all filled fails, Hook.readEnum]
  simp only [afterEnumHead_eq]
  cases found : matchIndex (enumTests enum) (Token.scan source.toList 1).tokens with
  | none => exact .inr ⟨by simp, rfl⟩
  | some start =>
    have counts : Counts (Walker.loop (enumStep _ enum shared) (0, []) (start + 3)) _ :=
      enumerators_counts solid (standsAt_window filled found) 0 []
    rw [map_nil_append] at counts
    change Counts _ (Hook.enumerators enum shared 0 ⟨List.drop 3 _, _⟩) at counts
    simp only [Option.bind_some]
    generalize Hook.enumerators enum shared 0 _ = read at counts
    cases counts with
    | stops overflows =>
      refine .inl ⟨rfl, ?_⟩
      simp only [overflows]
      rfl
    | comes yields bounded =>
      obtain ⟨out, walked, came⟩ := yields
      refine .inr ⟨bounded, ?_⟩
      simp only [walked, pure_bind, came]

/-- Reading the enumeration by index stops exactly if an enumerator with the last value is reached,
and otherwise it comes to the same end. -/
theorem enumeration_eq (source enum shared : String) :
    (enumeration source enum shared = throw .overflow ↔
      ∃ e ∈ Hook.reachedIn source enum shared, e.value = 2 ^ 63 - 1) ∧
    (enumeration source enum shared = throw .overflow ∨
      enumeration source enum shared = pure (Hook.readEnum source enum shared)) := by
  rcases enumeration_cases source enum shared with ⟨failed, stops⟩ | ⟨bounded, comes⟩
  · exact ⟨⟨fun _ => (Hook.readEnum_overflow_iff ..).mp failed, fun _ => stops⟩, .inl stops⟩
  · refine ⟨⟨fun stops => ?_, fun last => ?_⟩, .inr comes⟩
    · cases stops.symm.trans comes
    · exact absurd ((Hook.readEnum_overflow_iff ..).mpr last) bounded

/-- Behind the last value, counting would leave the range. -/
example : Hook.reachedIn "enum E { a = 9223372036854775807, b }" "E" "" =
    [⟨"a", 9223372036854775807, 1⟩, ⟨"b", 9223372036854775808, 1⟩] := by
  decide +kernel

end ByPosition

end ScriptGlue
