import Mathlib.Data.List.Chain
import ScriptGlue.Proofs.Source.GapPieces

/-!
# What a scan covers

The tokens of a source and the gaps around them make up the source: the span of a token says where
it stands and on which line, and the text between two spans is a gap. A token read alone is the same
token, so a span is all that a message or a later reader needs.
-/
namespace ScriptGlue

/-- Whether only blanks stand behind the last line feed of a text. -/
def startsLine (before : List Char) : Bool :=
  (before.reverse.takeWhile (· != '\n')).all Text.isBlank

/-- What may stand behind the last word: a gap, and what the end of the source cuts off. -/
def IsTail (before tail : List Char) : Prop :=
  ∃ gap last, tail = gap ++ last ∧ IsGap (startsLine before) gap ∧
    IsOpenEnd (startsLine (before ++ gap)) last

/-- The span from the end of one span to the start of another. -/
def Span.between (a b : Span) : Span := ⟨a.stop, b.start, a.line⟩

namespace Token

/-- The source ends inside a token, right after a backslash. -/
def IsCutOff (source : List Char) (t : Token) : Prop := IsOpenEscape (source.drop t.span.start)

/-- What a token tells about the source it was read from. -/
structure Located (source : List Char) (firstLine : Nat) (t : Token) : Prop where
  kind_ne_stop : t.kind ≠ .stop
  start_lt_stop : t.span.start < t.span.stop
  stop_le : ¬ t.IsCutOff source → t.span.stop ≤ source.length
  stop_eq : t.IsCutOff source →
    t.span.stop = source.length + 1 ∧ ∃ value, t.kind = .literal value
  line_eq : t.span.line = firstLine + (source.take t.span.start).count '\n'
  /-- The text of the token is that token and no other, but `#` alone opens a directive. -/
  alone : ∀ line, (scan (t.span.slice source) line).all.map (·.kind) =
    if t.kind = .other '#' then [.stop] else [t.kind, .stop]

/-- Tokens and gaps make up the source behind the span `head`. -/
structure Stream.Tiles (source : List Char) (firstLine : Nat) (head : Span) (stream : Stream) :
    Prop where
  located : ∀ t ∈ stream.tokens, t.Located source firstLine
  /-- Tokens stand in order and are parted by gaps. -/
  gaps : (head :: stream.tokens.map (·.span)).IsChain fun a b =>
    a.stop ≤ b.start ∧ IsGap (startsLine (source.take a.stop)) ((a.between b).slice source)
  /-- Behind the last token, a comment or a directive may be open. -/
  tail : ∀ a ∈ (head :: stream.tokens.map (·.span)).getLast?, a.stop ≤ stream.stop.start ∧
    IsTail (source.take a.stop) ((a.between stream.stop).slice source)
  stop_empty : stream.stop.stop = stream.stop.start
  stop_line : stream.stop.line = firstLine + (source.take stream.stop.start).count '\n'
  /-- The mark of the end stands at the end, and behind a token that the end cuts off. -/
  stop_whole : (∀ t ∈ stream.tokens, ¬ t.IsCutOff source) →
    stream.stop.start = max head.stop source.length
  stop_cutOff : ∀ t ∈ stream.tokens, t.IsCutOff source → stream.stop.start = t.span.stop

end Token

/-! ### Places of a source -/

theorem Span.slice_of_le {s : Span} (ordered : s.start ≤ s.stop) (source : List Char) :
    s.slice source = (source.drop s.start).take (s.stop - s.start) := by
  rw [slice]
  by_cases inside : s.start ≤ source.length
  · have start : min s.start (min s.stop source.length) = s.start := by omega
    simp only [start, List.take_eq_take_iff, List.length_drop]
    omega
  · have start : min s.start (min s.stop source.length) = source.length := by omega
    simp only [start, List.drop_length, List.take_nil]
    rw [List.drop_of_length_le (by omega), List.take_nil]

theorem startsLine_concat (before : List Char) (c : Char) :
    startsLine (before ++ [c]) = (c == '\n' || (startsLine before && Text.isBlank c)) := by
  rw [startsLine, startsLine, List.reverse_append, List.reverse_singleton, List.singleton_append,
    List.takeWhile_cons]
  by_cases feed : c = '\n'
  · simp [feed]
  · simp [feed, Bool.and_comm]

namespace Place

theorem line_after (p : Place) (s : List Char) : (p.after s).line = p.line + s.count '\n' := by
  induction s generalizing p with
  | nil => rfl
  | cons c r ih =>
    have rest := ih (p.next c)
    rw [after, List.foldl_cons, ← after, rest, next, List.count_cons]
    by_cases feed : c = '\n'
    · simp only [feed, if_true, beq_self_eq_true]
      omega
    · simp [feed]

theorem fresh_after {p : Place} {before : List Char} (here : p.fresh = startsLine before)
    (s : List Char) : (p.after s).fresh = startsLine (before ++ s) := by
  induction s generalizing p before with
  | nil => rw [List.append_nil, after_nil, here]
  | cons c r ih =>
    have next : (p.next c).fresh = startsLine (before ++ [c]) := by
      rw [startsLine_concat, ← here]
      rfl
    have rest := ih next
    rwa [List.append_assoc, List.singleton_append] at rest

/-- The scanner has come to this place of a source and `rest` is left. The offset may lie behind the
end of the source. -/
structure Reaches (source : List Char) (firstLine : Nat) (p : Place) (rest : List Char) :
    Prop where
  rest_eq : source.drop p.offset = rest
  line_eq : p.line = firstLine + (source.take p.offset).count '\n'
  fresh_eq : p.fresh = startsLine (source.take p.offset)

/-- A width moves over a piece: it is the length of the piece, or more at the end of the source. -/
def Spans (width : Nat) (piece rest : List Char) : Prop :=
  width = piece.length ∨ (rest = [] ∧ piece.length ≤ width)

theorem Spans.take_eq {width : Nat} {piece rest : List Char} (spans : Spans width piece rest) :
    (piece ++ rest).take width = piece := by
  rcases spans with rfl | ⟨rfl, wide⟩
  · exact List.take_left
  · rw [List.append_nil, List.take_of_length_le wide]

theorem Spans.drop_eq {width : Nat} {piece rest : List Char} (spans : Spans width piece rest) :
    (piece ++ rest).drop width = rest := by
  rcases spans with rfl | ⟨rfl, wide⟩
  · exact List.drop_left
  · rw [List.append_nil, List.drop_of_length_le wide]

namespace Reaches

variable {source : List Char} {firstLine : Nat} {p : Place} {piece rest : List Char} {width : Nat}

theorem first (source : List Char) (firstLine : Nat) :
    Reaches source firstLine (Place.first firstLine) source := ⟨rfl, rfl, rfl⟩

theorem take_eq (here : Reaches source firstLine p (piece ++ rest))
    (spans : Spans width piece rest) :
    source.take (p.offset + width) = source.take p.offset ++ piece := by
  rw [List.take_add, here.rest_eq, spans.take_eq]

/-- The scanner moves over a piece. -/
theorem move (here : Reaches source firstLine p (piece ++ rest)) (spans : Spans width piece rest) :
    Reaches source firstLine { p.after piece with offset := p.offset + width } rest where
  rest_eq := by
    rw [← List.drop_drop, here.rest_eq, spans.drop_eq]
  line_eq := by
    rw [here.take_eq spans, List.count_append, line_after, here.line_eq]
    exact Nat.add_assoc _ _ _
  fresh_eq := by
    rw [here.take_eq spans, ← fresh_after here.fresh_eq]

theorem after (here : Reaches source firstLine p (piece ++ rest)) :
    Reaches source firstLine (p.after piece) rest := by
  have moved := here.move (.inl rfl)
  rwa [eq_after] at moved

/-- The span of a piece covers the piece. -/
theorem slice_eq (here : Reaches source firstLine p (piece ++ rest))
    (spans : Spans width piece rest) (line : Nat) :
    Span.slice ⟨p.offset, p.offset + width, line⟩ source = piece := by
  rw [Span.slice_of_le (Nat.le_add_right _ _), here.rest_eq, Nat.add_sub_cancel_left,
    spans.take_eq]

/-- At the end of the source, the offset is its length, or what it was if that is more. -/
theorem offset_after_all (here : Reaches source firstLine p piece) :
    (p.after piece).offset = max p.offset source.length := by
  have left := congrArg List.length here.rest_eq
  rw [List.length_drop] at left
  rw [offset_after]
  omega

end Reaches

end Place

namespace Token

/-! ### One token -/

theorem spans_lexeme (c : Char) (r : List Char) :
    Place.Spans (lexeme c r).width (lexeme c r).cut.piece (lexeme c r).cut.rest := by
  by_cases cutOff : IsOpenEscape (c :: r)
  · obtain ⟨value, same⟩ := lexeme_of_isOpenEscape cutOff
    rw [same]
    exact .inr ⟨rfl, Nat.le_succ _⟩
  · exact .inl ((isLexeme_lexeme c r).width_eq cutOff)

/-- The text of a token, scanned alone, has that one token, unless it opens a directive. -/
theorem scan_lexeme {fresh : Bool} {c : Char} {r : List Char} (noGap : gap? fresh (c :: r) = none)
    (line : Nat) : (scan (lexeme c r).cut.piece line).all.map (·.kind) =
      if (lexeme c r).kind = .other '#' then [.stop] else [(lexeme c r).kind, .stop] := by
  by_cases hash : c = '#'
  · have kind : (lexeme c r).kind = .other '#' := kind_lexeme_eq_hash_iff.mpr hash
    have piece : (lexeme c r).cut.piece = ['#'] := by
      rw [hash, lexeme_single (by decide) (by decide) (by decide) (by decide)]
    have opens : gap? (Place.first line).fresh ['#'] = some ⟨['#'], []⟩ := rfl
    rw [if_pos kind, piece, scan, scanFrom_cut opens, scanFrom_nil]
    rfl
  · have noKind : ¬ (lexeme c r).kind = .other '#' := fun kind =>
      hash (kind_lexeme_eq_hash_iff.mp kind)
    have noGap' := gap?_lexeme noGap hash (Place.first line).fresh
    obtain ⟨q, piece, alone⟩ := lexeme_alone c r
    rw [piece] at noGap' ⊢
    rw [if_neg noKind, scan, scanFrom_cons noGap', alone, scanFrom_nil]
    rfl

section

variable {source : List Char} {firstLine : Nat} {p : Place}

/-- A lexeme that is taken where its text starts stands where it says. -/
theorem located_lexeme {c : Char} {r : List Char} (here : p.Reaches source firstLine (c :: r))
    (noGap : gap? p.fresh (c :: r) = none) :
    Located source firstLine
      ⟨(lexeme c r).kind, ⟨p.offset, p.offset + (lexeme c r).width, p.line⟩⟩ := by
  have whole := (isLexeme_lexeme c r).whole
  have spans := spans_lexeme c r
  have length : source.length - p.offset = (c :: r).length := by
    rw [← here.rest_eq, List.length_drop]
  have parts := congrArg List.length whole
  rw [List.length_append] at parts
  exact {
    kind_ne_stop := (isLexeme_lexeme c r).kind_ne_stop
    start_lt_stop := by
      obtain ⟨q, piece, -⟩ := lexeme_alone c r
      rw [piece] at spans
      simp only [List.length_cons] at length
      rcases spans with width | ⟨-, width⟩ <;> simp only [List.length_cons] at width ⊢ <;> omega
    stop_le := by
      intro closed
      rw [IsCutOff, here.rest_eq] at closed
      have width := (isLexeme_lexeme c r).width_eq closed
      simp only [List.length_cons] at length parts ⊢
      omega
    stop_eq := by
      intro cutOff
      rw [IsCutOff, here.rest_eq] at cutOff
      obtain ⟨value, same⟩ := lexeme_of_isOpenEscape cutOff
      simp only [same]
      refine ⟨?_, value, rfl⟩
      simp only [List.length_cons] at length ⊢
      omega
    line_eq := here.line_eq
    alone := by
      intro line
      have slice := Place.Reaches.slice_eq (by rwa [whole]) spans p.line
      rw [slice]
      exact scan_lexeme noGap line }

/-! ### All tokens -/

/-- Where no token is left, the scanner stops at the end of the source. -/
theorem Stream.Tiles.last {head : Span} {gap tail : List Char}
    (here : p.Reaches source firstLine (gap ++ tail)) (isGap : IsGap p.fresh gap)
    (isEnd : IsOpenEnd (p.after gap).fresh tail) (starts : head.stop = p.offset) :
    (scanFrom (p.after (gap ++ tail)) []).Tiles source firstLine head := by
  have isTail : IsTail (source.take p.offset) (gap ++ tail) := by
    rw [here.fresh_eq] at isGap
    rw [Place.fresh_after here.fresh_eq] at isEnd
    exact ⟨gap, tail, rfl, isGap, isEnd⟩
  have stop := here.offset_after_all
  rw [← List.append_nil (gap ++ tail)] at here
  have slice := here.slice_eq (.inl rfl) head.line
  rw [← Place.offset_after] at slice
  rw [scanFrom_nil]
  exact {
    located := by simp
    gaps := .singleton head
    tail := by
      intro a last
      obtain rfl : head = a := by simpa using last
      refine ⟨?_, ?_⟩
      · simp only [starts, Place.offset_after]
        omega
      · simp only [Span.between, starts, slice]
        exact isTail
    stop_empty := rfl
    stop_line := here.after.line_eq
    stop_whole := by
      intro _
      rw [starts]
      exact stop
    stop_cutOff := by simp }

/-- A gap and a token in front of tokens that make up the rest of the source. -/
theorem Stream.Tiles.push {head : Span} {gap rest : List Char} {t : Token} {stream : Stream}
    (here : p.Reaches source firstLine (gap ++ rest)) (isGap : IsGap p.fresh gap)
    (starts : head.stop = p.offset) (place : t.span.start = (p.after gap).offset)
    (located : t.Located source firstLine) (tiles : stream.Tiles source firstLine t.span)
    (ends : t.IsCutOff source → stream.stop.start = t.span.stop) :
    (stream.push t).Tiles source firstLine head := by
  have behind : head.stop ≤ t.span.start := by
    rw [starts, place, Place.offset_after]
    exact Nat.le_add_right _ _
  have slice := here.slice_eq (.inl rfl) head.line
  rw [← Place.offset_after, ← place] at slice
  exact {
    located := by
      intro u member
      rcases List.mem_cons.mp member with rfl | member
      · exact located
      · exact tiles.located u member
    gaps := by
      refine .cons_cons ⟨behind, ?_⟩ tiles.gaps
      rw [here.fresh_eq] at isGap
      simp only [Span.between, starts, slice]
      exact isGap
    tail := by
      intro a last
      rw [Stream.push, List.map_cons, List.getLast?_cons_cons] at last
      exact tiles.tail a last
    stop_empty := tiles.stop_empty
    stop_line := tiles.stop_line
    stop_whole := by
      intro whole
      have stop := tiles.stop_whole fun u member => whole u (List.mem_cons_of_mem _ member)
      have inside := located.stop_le (whole t List.mem_cons_self)
      have nonempty := located.start_lt_stop
      rw [Nat.max_eq_right inside] at stop
      rw [Nat.max_eq_right (by omega)]
      exact stop
    stop_cutOff := by
      intro u member cutOff
      rcases List.mem_cons.mp member with rfl | member
      · exact ends cutOff
      · exact tiles.stop_cutOff u member cutOff }

/-- From every place that the scanner reaches, tokens and gaps make up what is left. -/
theorem tiles_scanFrom {p : Place} {s : List Char} (here : p.Reaches source firstLine s)
    {head : Span} (starts : head.stop = p.offset) : (scanFrom p s).Tiles source firstLine head := by
  -- by recursion on what is left behind the next token, whose span is the next head
  obtain ⟨gap, rest, rfl, isGap, stops⟩ := exists_gap p s
  rw [scanFrom_gap isGap rfl]
  cases stops with
  | openEnd isEnd read =>
    rw [read, ← Place.after_append]
    exact .last here isGap isEnd starts
  | @token c r noGap =>
    have shorter := lexeme_rest_le c r
    have next := here.after
    have located := located_lexeme next noGap
    have behind := next
    rw [← (isLexeme_lexeme c r).whole] at behind
    rw [scanFrom_cons noGap]
    refine .push here isGap starts rfl located
      (tiles_scanFrom (behind.move (spans_lexeme c r)) rfl) fun cutOff => ?_
    -- nothing is left behind a token that is cut off, so the scan stops where its span does
    rw [IsCutOff, next.rest_eq] at cutOff
    obtain ⟨value, same⟩ := lexeme_of_isOpenEscape cutOff
    simp only [same, scanFrom_nil]
termination_by s.length
decreasing_by
  subst_vars
  simp only [List.length_append, List.length_cons]
  omega

end

theorem located_scan {source : List Char} {firstLine : Nat} {t : Token}
    (member : t ∈ (scan source firstLine).tokens) : t.Located source firstLine := by
  have tiles : (scan source firstLine).Tiles source firstLine ⟨0, 0, firstLine⟩ :=
    tiles_scanFrom (Place.Reaches.first source firstLine) rfl
  exact tiles.located t member

/-- Scanning loses nothing of a source and says where everything is. -/
theorem scan_tiles (source : List Char) (firstLine : Nat) :
    (scan source firstLine).Tiles source firstLine ⟨0, 0, firstLine⟩ :=
  tiles_scanFrom (Place.Reaches.first source firstLine) rfl

/-- A literal that ends with a backslash reaches one place behind the source. -/
example : (scan ['a', '\n', '"', 'b', '\\'] 7).all.map (·.span) =
    [⟨0, 1, 7⟩, ⟨2, 6, 8⟩, ⟨6, 6, 8⟩] := by
  decide +kernel

end Token

end ScriptGlue
