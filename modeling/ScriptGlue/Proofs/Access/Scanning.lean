import ScriptGlue.Proofs.Access.Checked
import ScriptGlue.Proofs.Source.Coverage
import ScriptGlue.Proofs.Source.Pieces

/-!
# Scanning by position

The scanner moves a position over the source. Each of its loops takes the piece that is cut off the
text at the position, so it finds the same tokens as the scan of the text.
-/
namespace ScriptGlue

/-- Where the scanner stands. The position may lie behind the end of the source. -/
structure Head where
  pos : Nat
  line : Nat

namespace Head

variable (source : List Char)

def peek (h : Head) : Option Char := source[h.pos]?

def peekNext (h : Head) : Option Char := source[h.pos + 1]?

/-- Moves over one character; behind the end of the source the position goes on all the same. -/
def advance (h : Head) : Head :=
  ⟨h.pos + 1, if h.peek source = some '\n' then h.line + 1 else h.line⟩

def past (h : Head) (piece : List Char) : Head := ⟨h.pos + piece.length, h.line + piece.count '\n'⟩

variable {source} {h : Head}

@[simp] theorem past_nil (h : Head) : h.past [] = h := rfl

theorem past_append (h : Head) (a b : List Char) : h.past (a ++ b) = (h.past a).past b := by
  simp only [past, List.length_append, List.count_append, Nat.add_assoc]

theorem past_cons (h : Head) (c : Char) (s : List Char) : h.past (c :: s) = (h.past [c]).past s :=
  h.past_append [c] s

theorem drop_past {piece rest : List Char} (here : source.drop h.pos = piece ++ rest) :
    source.drop (h.past piece).pos = rest := by
  rw [past, ← List.drop_drop, here, List.drop_left]

theorem peek_eq (h : Head) : h.peek source = (source.drop h.pos).head? :=
  List.head?_drop.symm

section

variable {c : Char} {r : List Char} (here : source.drop h.pos = c :: r)
include here

theorem peek_cons : h.peek source = some c := by rw [peek_eq, here, List.head?_cons]

theorem peekNext_cons : h.peekNext source = r.head? := by
  have behind : source.drop (h.past [c]).pos = r := drop_past here
  rw [← behind, List.head?_drop]
  rfl

theorem advance_cons : h.advance source = h.past [c] := by
  rw [advance, peek_cons here, past]
  by_cases feed : c = '\n'
  · simp [feed]
  · simp [feed]

theorem drop_advance : source.drop (h.advance source).pos = r := by
  have behind : source.drop (h.past [c]).pos = r := drop_past here
  rwa [advance_cons here]

end

theorem peek_nil (here : source.drop h.pos = []) : h.peek source = none := by
  rw [peek_eq, here, List.head?_nil]

end Head

namespace Place

def head (p : Place) : Head := ⟨p.offset, p.line⟩

theorem head_after (p : Place) (piece : List Char) : (p.after piece).head = p.head.past piece := by
  rw [head, offset_after, line_after]
  rfl

end Place

namespace ByPosition

open Checked (item range minus)
open Checked.Step (loop loop_done loop_next)

/-! ### Loops of the scanner -/

section

variable (source : List Char)

/-- Moves on as long as a test holds. -/
def passWhile (p : Char → Bool) : Head → Checked Head := loop fun h =>
  match h.peek source with
  | some c => if p c then pure (.inl (h.advance source)) else pure (.inr h)
  | none => pure (.inr h)

/-- Moves to the end of a block comment whose opening mark has been passed. -/
def passComment : Head → Checked Head := loop fun h =>
  if source.length ≤ h.pos then pure (.inr h)
  else if h.peek source = some '*' ∧ h.peekNext source = some '/' then
    pure (.inr ((h.advance source).advance source))
  else pure (.inl (h.advance source))

/-- Moves to the end of a directive. -/
def passDirective : Head → Checked Head := loop fun h =>
  match h.peek source with
  | some c =>
    if c = '\\' ∧ h.peekNext source = some '\n' then
      pure (.inl ((h.advance source).advance source))
    else if c = '\n' then pure (.inr h)
    else pure (.inl (h.advance source))
  | none => pure (.inr h)

/-- Whether only blanks stand before the position on its line. -/
def atLineStart (h : Head) : Checked Bool := do
  let before ← range source 0 (min h.pos source.length)
  return (before.reverse.takeWhile (· != '\n')).all Text.isBlank

/-- Moves over one gap if one starts here. -/
def gapStep (h : Head) : Checked (Head ⊕ Head) :=
  match h.peek source with
  | some c =>
    if Token.isSpace c then pure (.inl (h.advance source))
    else if c = '/' ∧ h.peekNext source = some '/' then do
      return .inl (← passWhile source (· ≠ '\n') h)
    else if c = '/' ∧ h.peekNext source = some '*' then do
      return .inl (← passComment source ((h.advance source).advance source))
    else if c = '#' then do
      if ← atLineStart source h then return .inl (← passDirective source h)
      else return .inr h
    else pure (.inr h)
  | none => pure (.inr h)

/-- Moves to the next token. -/
def passGaps : Head → Checked Head := loop (gapStep source)

/-- Reads a string literal behind its opening quote. -/
def passLiteral : Head × List Char → Checked (Head × List Char) := loop fun (h, value) =>
  match h.peek source with
  | some c =>
    if c = '"' then pure (.inr (h.advance source, value))
    else if c = '\\' then
      let behind := h.advance source
      match behind.peek source with
      | some d => pure (.inl (behind.advance source, value ++ [Token.unescape d]))
      | none => pure (.inr (behind.advance source, value))
    else if c = '\n' then pure (.inr (h, value))
    else pure (.inl (h.advance source, value ++ [c]))
  | none => pure (.inr (h, value))

def tokenAt (kind : Token.Kind) (start stop : Head) : Token :=
  ⟨kind, ⟨start.pos, stop.pos, start.line⟩⟩

/-- Reads a word that goes on as long as a test holds, and moves behind it. -/
def wordFrom (p : Char → Bool) (kind : String → Token.Kind) (start : Head) :
    Checked (Token × Head) := do
  let stop ← passWhile source p start
  let text ← range source start.pos stop.pos
  return (tokenAt (kind (String.ofList text)) start stop, stop)

/-- Reads the token that starts with `c`, and moves behind it. -/
def lexemeFrom (start : Head) (c : Char) : Checked (Token × Head) :=
  if Text.isIdentStart c then wordFrom source Text.isIdentRest .ident start
  else if c.isDigit then wordFrom source Token.isNumberRest .number start
  else if c = '"' then do
    let (stop, value) ← passLiteral source (start.advance source, [])
    return (tokenAt (.literal (String.ofList value)) start stop, stop)
  else
    let behind := start.advance source
    if c = '.' ∧ behind.peek source = some '.' ∧ behind.peekNext source = some '.' then
      let stop := (behind.advance source).advance source
      pure (tokenAt .ellipsis start stop, stop)
    else pure (tokenAt (Token.markKind c) start behind, behind)

/-- Reads the next token, and moves behind it. -/
def nextToken (h : Head) : Checked (Token × Head) := do
  let start ← passGaps source h
  match start.peek source with
  | none => return (tokenAt .stop start start, start)
  | some c => lexemeFrom source start c

/-- Reads tokens up to the mark that ends them, behind those that have been read. -/
def tokensFrom : Head × List Token → Checked (List Token) := loop fun (h, read) => do
  let (t, behind) ← nextToken source h
  if t.kind = .stop then return .inr (read ++ [t]) else return .inl (behind, read ++ [t])

def tokens (line : Nat) : Checked (List Token) := tokensFrom source (⟨0, line⟩, [])

end

variable {source : List Char}

def slice (source : List Char) (span : Span) : Checked (List Char) :=
  let stop := min span.stop source.length
  let start := min span.start stop
  range source start stop

theorem slice_eq (source : List Char) (span : Span) :
    slice source span = pure (span.slice source) :=
  Checked.range_eq (Nat.min_le_right _ _) (Nat.min_le_right _ _)

theorem passWhile_eq (p : Char → Bool) (h : Head) :
    passWhile source p h = pure (h.past (Cut.span p (source.drop h.pos)).piece) := by
  generalize here : source.drop h.pos = s
  induction s generalizing h with
  | nil => exact loop_done (by simp only [Head.peek_nil here]; rfl)
  | cons c r ih =>
    rw [Cut.span]
    by_cases holds : p c = true
    · have next := ih (h.advance source) (Head.drop_advance here)
      rw [if_pos holds, Cut.cons, Head.past_cons, ← Head.advance_cons here, ← next]
      exact loop_next (by simp only [Head.peek_cons here, holds, if_true])
    · rw [if_neg holds]
      exact loop_done (by simp only [Head.peek_cons here, if_neg holds]; rfl)

theorem passComment_eq (h : Head) :
    passComment source h = pure (h.past (Cut.blockComment (source.drop h.pos)).piece) := by
  have inside {h : Head} {c : Char} {r : List Char} (here : source.drop h.pos = c :: r) :
      ¬ source.length ≤ h.pos := by
    intro behind
    rw [List.drop_eq_nil_of_le behind] at here
    cases here
  generalize here : source.drop h.pos = s
  fun_induction Cut.blockComment s generalizing h with
  | case1 => exact loop_done (if_pos (List.drop_eq_nil_iff.mp here))
  | case2 r =>
    refine loop_done ?_
    rw [if_neg (inside here), if_pos ⟨Head.peek_cons here, Head.peekNext_cons here⟩,
      Head.advance_cons (Head.drop_advance here), Head.advance_cons here, ← Head.past_append]
    rfl
  | case3 c r noClose ih =>
    have next := ih (h.advance source) (Head.drop_advance here)
    rw [Cut.cons, Head.past_cons, ← Head.advance_cons here, ← next]
    refine loop_next ?_
    rw [if_neg (inside here), if_neg]
    rintro ⟨star, slash⟩
    rw [Head.peek_cons here] at star
    rw [Head.peekNext_cons here] at slash
    obtain ⟨t, rfl⟩ := List.head?_eq_some_iff.mp slash
    exact noClose t (Option.some.inj star) rfl

theorem passDirective_eq (h : Head) :
    passDirective source h = pure (h.past (Cut.directive (source.drop h.pos)).piece) := by
  generalize here : source.drop h.pos = s
  fun_induction Cut.directive s generalizing h with
  | case1 => exact loop_done (by simp only [Head.peek_nil here]; rfl)
  | case2 r ih =>
    have second := Head.drop_advance here
    have next := ih _ (Head.drop_advance second)
    have behind : (h.advance source).advance source = h.past ['\\', '\n'] := by
      rw [Head.advance_cons second, Head.advance_cons here, ← Head.past_append]
      rfl
    have piece : (((Cut.directive r).cons '\n').cons '\\').piece =
        ['\\', '\n'] ++ (Cut.directive r).piece := rfl
    rw [piece, Head.past_append, ← behind, ← next]
    exact loop_next (by simp only [Head.peek_cons here, Head.peekNext_cons here, List.head?_cons,
      and_self, if_true])
  | case3 r =>
    refine loop_done ?_
    simp only [Head.peek_cons here, if_true]
    rw [if_neg (fun both => absurd both.1 (by decide))]
    rfl
  | case4 c r noPair noFeed ih =>
    have next := ih (h.advance source) (Head.drop_advance here)
    rw [Cut.cons, Head.past_cons, ← Head.advance_cons here, ← next]
    refine loop_next ?_
    simp only [Head.peek_cons here, Head.peekNext_cons here]
    rw [if_neg, if_neg noFeed]
    rintro ⟨slash, feed⟩
    obtain ⟨t, rfl⟩ := List.head?_eq_some_iff.mp feed
    exact noPair t slash rfl

theorem atLineStart_eq (h : Head) :
    atLineStart source h = pure (startsLine (source.take h.pos)) := by
  have before : source.take (min h.pos source.length) = source.take h.pos := by
    rw [List.take_eq_take_iff]
    omega
  rw [atLineStart, Checked.range_eq (Nat.zero_le _) (Nat.min_le_right _ _), pure_bind,
    List.drop_zero, Nat.sub_zero, before]
  rfl

/-! ### Gaps -/

/-- A gap is passed as a whole. -/
theorem gapStep_gap {h : Head} {cut : Cut}
    (found : Token.gap? (startsLine (source.take h.pos)) (source.drop h.pos) = some cut) :
    gapStep source h = pure (.inl (h.past cut.piece)) := by
  generalize here : source.drop h.pos = s at found
  unfold Token.gap? at found
  split at found
  · cases found
  · rename_i c r
    simp only [gapStep, Head.peek_cons here, Head.peekNext_cons here]
    split at found
    · rename_i space
      cases found
      rw [if_pos space, Head.advance_cons here]
    · rename_i solid
      rw [if_neg solid]
      split at found
      · cases found
        rw [if_pos ⟨rfl, rfl⟩, passWhile_eq, here, pure_bind]
        rfl
      · rename_i r'
        cases found
        have second := Head.drop_advance here
        rw [if_neg (fun both => absurd both.2 (by simp)), if_pos ⟨rfl, rfl⟩, passComment_eq,
          Head.drop_advance second, Head.advance_cons second, Head.advance_cons here, pure_bind,
          ← Head.past_append, ← Head.past_append]
        rfl
      · split at found
        · rename_i fresh
          cases found
          rw [if_neg (fun both => absurd both.1 (by decide)),
            if_neg (fun both => absurd both.1 (by decide)), if_pos rfl, atLineStart_eq, pure_bind,
            if_pos fresh, passDirective_eq, here, pure_bind]
          rfl
        · cases found
      · cases found

theorem gapStep_none {h : Head}
    (none : Token.gap? (startsLine (source.take h.pos)) (source.drop h.pos) = none) :
    gapStep source h = pure (.inr h) := by
  cases here : source.drop h.pos with
  | nil => simp only [gapStep, Head.peek_nil here]
  | cons c r =>
    rw [here] at none
    obtain ⟨solid, noComment, noHash⟩ := Token.gap?_eq_none_iff.mp none
    have other {d : Char} (opens : Token.opensComment d = true) :
        ¬ (c = '/' ∧ r.head? = some d) := by
      rintro ⟨slash, next⟩
      have clear := noComment slash
      rw [next, Option.any_some, opens] at clear
      cases clear
    simp only [gapStep, Head.peek_cons here, Head.peekNext_cons here]
    rw [if_neg (by simp [solid]), if_neg (other rfl), if_neg (other rfl)]
    split
    · rename_i hash
      rw [atLineStart_eq, pure_bind, noHash hash]
      rfl
    · rfl

variable {firstLine : Nat}

/-- The scanner moves over all gaps in front of a token, or to the end of the source. -/
theorem passGaps_eq {p : Place} {s : List Char} (here : p.Reaches source firstLine s) :
    ∃ q r, passGaps source p.head = pure q.head ∧ q.Reaches source firstLine r ∧
      Token.scanFrom p s = Token.scanFrom q r ∧ Token.gap? q.fresh r = none ∧
      r.length ≤ s.length := by
  have stands : Token.gap? (startsLine (source.take p.head.pos)) (source.drop p.head.pos) =
      Token.gap? p.fresh s := by
    rw [here.fresh_eq, ← here.rest_eq]
    rfl
  cases found : Token.gap? p.fresh s with
  | none =>
    exact ⟨p, s, loop_done (gapStep_none (stands.trans found)), here, rfl, found, Nat.le_refl _⟩
  | some cut =>
    have shorter := Token.gap?_rest_lt found
    have next := gapStep_gap (stands.trans found)
    rw [← Place.head_after] at next
    rw [← (Token.isPiece_of_gap? found).2] at here
    obtain ⟨q, r, passed, there, same, noGap, length⟩ := passGaps_eq here.after
    exact ⟨q, r, (loop_next next).trans passed, there, (Token.scanFrom_cut found).trans same, noGap,
      by omega⟩
termination_by s.length

/-! ### Tokens -/

/-- The text that a move passes is the piece that was found. -/
theorem range_past {h : Head} {piece rest : List Char}
    (here : source.drop h.pos = piece ++ rest) (some : piece ≠ []) :
    range source h.pos (h.past piece).pos = pure piece := by
  have reach := congrArg List.length here
  have width := List.length_pos_iff.mpr some
  simp only [List.length_drop, List.length_append] at reach
  rw [Head.past, Checked.range_eq (by simp) (by simp only; omega), here]
  simp

theorem passLiteral_eq (h : Head) (value : List Char) :
    passLiteral source (h, value) =
      let body := Token.literalBody (source.drop h.pos)
      pure (⟨(h.past body.cut.piece).pos + if body.dangling then 1 else 0,
        (h.past body.cut.piece).line⟩, value ++ body.value) := by
  dsimp only
  generalize here : source.drop h.pos = s
  fun_induction Token.literalBody s generalizing h value with
  | case1 => exact loop_done (by simp [Head.peek_nil here])
  | case2 r => exact loop_done (by simp [Head.peek_cons here, Head.advance_cons here])
  | case3 =>
    have behind := Head.drop_advance here
    -- there is nothing behind the backslash, but the position goes on all the same
    have last : (h.advance source).advance source = ⟨h.pos + 1 + 1, h.line⟩ := by
      rw [Head.advance, Head.peek_nil behind, if_neg (by simp), Head.advance_cons here]
      rfl
    refine loop_done ?_
    simp only [Head.peek_cons here, Head.peek_nil behind, last]
    simp [Head.past]
  | case4 c r ih =>
    have second := Head.drop_advance here
    have next := ih _ (value ++ [Token.unescape c]) (Head.drop_advance second)
    have behind : (h.advance source).advance source = h.past ['\\', c] := by
      rw [Head.advance_cons second, Head.advance_cons here, ← Head.past_append]
      rfl
    rw [Token.LiteralBody.push, Head.past_append, ← behind, ← List.append_assoc]
    refine Eq.trans (loop_next ?_) next
    simp [Head.peek_cons here, Head.peek_cons second]
  | case5 r => exact loop_done (by simp [Head.peek_cons here])
  | case6 c r notQuote notEscaped notLast notFeed ih =>
    have noEscape : c ≠ '\\' := by
      intro escape
      cases r with
      | nil => exact notEscaped escape rfl
      | cons d t => exact notLast d t escape rfl
    have next := ih _ (value ++ [c]) (Head.drop_advance here)
    rw [Token.LiteralBody.push, Head.past_append, ← Head.advance_cons here, ← List.append_assoc]
    refine Eq.trans (loop_next ?_) next
    simp only [Head.peek_cons here]
    rw [if_neg notQuote, if_neg noEscape, if_neg notFeed]

/-- A word is the longest piece that passes the test. -/
theorem wordFrom_eq {p : Char → Bool} (kind : String → Token.Kind) {h : Head} {c : Char}
    {r : List Char} (here : source.drop h.pos = c :: r) (holds : p c = true) :
    wordFrom source p kind h =
      let cut := (Cut.span p r).cons c
      pure (⟨kind (String.ofList cut.piece), ⟨h.pos, h.pos + cut.piece.length, h.line⟩⟩,
        h.past cut.piece) := by
  have run : Cut.span p (c :: r) = (Cut.span p r).cons c := if_pos holds
  have whole : source.drop h.pos = ((Cut.span p r).cons c).piece ++ (Cut.span p r).rest := by
    rw [here, Cut.cons, List.cons_append, Cut.span_whole]
  have some : ((Cut.span p r).cons c).piece ≠ [] := List.cons_ne_nil _ _
  rw [wordFrom, passWhile_eq, here, run, pure_bind, range_past whole some, pure_bind]
  rfl

/-- Behind the end of the source or not, the scanner reads the token that starts where it stands. -/
theorem lexemeFrom_eq {h : Head} {c : Char} {r : List Char}
    (here : source.drop h.pos = c :: r) :
    lexemeFrom source h c =
      let l := Token.lexeme c r
      pure (⟨l.kind, ⟨h.pos, h.pos + l.width, h.line⟩⟩,
        ⟨h.pos + l.width, h.line + l.cut.piece.count '\n'⟩) := by
  unfold lexemeFrom Token.lexeme
  by_cases start : Text.isIdentStart c = true
  · rw [if_pos start, if_pos start,
      wordFrom_eq .ident here (Text.isIdentRest_of_isIdentStart start)]
    rfl
  by_cases digit : c.isDigit = true
  · have holds : Token.isNumberRest c = true := by simp [Token.isNumberRest, Char.isAlphanum, digit]
    rw [if_neg start, if_neg start, if_pos digit, if_pos digit, wordFrom_eq .number here holds]
    rfl
  by_cases quote : c = '"'
  · have behind := Head.drop_advance here
    rw [if_neg start, if_neg start, if_neg digit, if_neg digit, if_pos quote, if_pos quote,
      passLiteral_eq, behind, Head.advance_cons here]
    simp only [pure_bind, List.nil_append, ← Head.past_append, tokenAt, Cut.cons]
    simp only [Head.past, List.singleton_append, Nat.add_assoc]
  rw [if_neg start, if_neg start, if_neg digit, if_neg digit, if_neg quote, if_neg quote]
  by_cases dots : c = '.' ∧ ∃ t, r = '.' :: '.' :: t
  · obtain ⟨rfl, t, rfl⟩ := dots
    have second := Head.drop_advance here
    have third := Head.drop_advance second
    have stop : (((h.advance source).advance source).advance source) = h.past ['.', '.', '.'] := by
      rw [Head.advance_cons third, Head.advance_cons second, Head.advance_cons here,
        ← Head.past_append, ← Head.past_append]
      rfl
    rw [if_pos ⟨rfl, Head.peek_cons second, Head.peekNext_cons second⟩, stop]
    rfl
  · have behind := Head.drop_advance here
    rw [if_neg]
    · split
      · exact absurd ⟨rfl, _, rfl⟩ dots
      · rw [Head.advance_cons here]
        rfl
    · rintro ⟨dot, next, last⟩
      refine dots ⟨dot, ?_⟩
      rw [Head.peek_eq, behind] at next
      obtain ⟨t, rfl⟩ := List.head?_eq_some_iff.mp next
      rw [Head.peekNext_cons behind] at last
      obtain ⟨u, rfl⟩ := List.head?_eq_some_iff.mp last
      exact ⟨u, rfl⟩

/-- The scanner finds the tokens of the text in front of it. -/
theorem tokensFrom_eq {p : Place} {s : List Char} (here : p.Reaches source firstLine s)
    (read : List Token) : tokensFrom source (p.head, read) =
      pure (read ++ (Token.scanFrom p s).all) := by
  obtain ⟨q, r, passed, there, same, noGap, length⟩ := passGaps_eq here
  have behind : source.drop q.head.pos = r := there.rest_eq
  rw [same]
  cases r with
  | nil =>
    have next : nextToken source p.head = pure (tokenAt .stop q.head q.head, q.head) := by
      rw [nextToken, passed, pure_bind]
      simp only [Head.peek_nil behind]
    rw [Token.scanFrom_nil]
    refine loop_done ?_
    dsimp only
    rw [next, pure_bind]
    rfl
  | cons c r =>
    have shorter := Token.lexeme_rest_le c r
    have solid := (Token.isLexeme_lexeme c r).kind_ne_stop
    have next : nextToken source p.head = lexemeFrom source q.head c := by
      rw [nextToken, passed, pure_bind]
      simp only [Head.peek_cons behind]
    have moved := there
    rw [← (Token.isLexeme_lexeme c r).whole] at moved
    have later := tokensFrom_eq (moved.move (Token.spans_lexeme c r))
      (read ++ [⟨(Token.lexeme c r).kind, ⟨q.offset, q.offset + (Token.lexeme c r).width, q.line⟩⟩])
    rw [Token.scanFrom_cons noGap]
    refine Eq.trans (loop_next ?_) (later.trans ?_)
    · dsimp only
      rw [next, lexemeFrom_eq behind, pure_bind]
      simp only [if_neg solid, Place.line_after, Place.head]
    · simp [Token.Stream.push, Token.Stream.all]
termination_by s.length
decreasing_by
  simp only [List.length_cons] at length
  omega

/-- By position, the same tokens are read as from the text. -/
theorem tokens_eq (source : List Char) (line : Nat) :
    tokens source line = pure (Token.scan source line).all :=
  tokensFrom_eq (Place.Reaches.first source line) []

end ByPosition

end ScriptGlue
