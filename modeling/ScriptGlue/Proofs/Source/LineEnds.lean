import ScriptGlue.Proofs.Source.Pieces

/-!
# Line ends

A source is read alike whether its lines end with a line feed alone or with a carriage return before
it, as long as its literals and directives do not go on over a line end. A directive that does goes
on only where nothing stands between the backslash and the line feed.
-/
namespace ScriptGlue

open Token (Kind)

namespace Text

/-- A text with a carriage return before each line feed. -/
def withReturns (s : List Char) : List Char := s.flatMap fun c => if c = '\n' then ['\r', c] else [c]

theorem withReturns_feed (s : List Char) :
    withReturns ('\n' :: s) = '\r' :: '\n' :: withReturns s := rfl

theorem withReturns_cons {c : Char} (noFeed : c ≠ '\n') (s : List Char) :
    withReturns (c :: s) = c :: withReturns s := by
  simp [withReturns, noFeed]

theorem withReturns_append (s t : List Char) :
    withReturns (s ++ t) = withReturns s ++ withReturns t := List.flatMap_append

theorem withReturns_eq {s : List Char} (line : '\n' ∉ s) : withReturns s = s := by
  induction s with
  | nil => rfl
  | cons c r ih =>
    rw [List.mem_cons, not_or] at line
    rw [withReturns_cons (Ne.symm line.1), ih line.2]

theorem eq_cons_of_withReturns {c : Char} {s t : List Char} (noReturn : c ≠ '\r')
    (same : withReturns s = c :: t) : ∃ r, s = c :: r ∧ withReturns r = t := by
  cases s with
  | nil => cases same
  | cons d r =>
    by_cases feed : d = '\n'
    · rw [feed, withReturns_feed] at same
      exact absurd (List.cons.inj same).1.symm noReturn
    · rw [withReturns_cons feed] at same
      obtain ⟨rfl, rest⟩ := List.cons.inj same
      exact ⟨r, rfl, rest⟩

/-- A text starts with a character that ends no line as soon as it does without its returns. -/
theorem head?_withReturns {p : Char → Bool} (noFeed : p '\n' = false) (noReturn : p '\r' = false)
    (s : List Char) : (withReturns s).head?.any p = s.head?.any p := by
  cases s with
  | nil => rfl
  | cons c r =>
    by_cases feed : c = '\n'
    · rw [feed, withReturns_feed]
      simp [noFeed, noReturn]
    · rw [withReturns_cons feed]
      rfl

end Text

open Text (withReturns withReturns_feed withReturns_cons withReturns_append withReturns_eq
  eq_cons_of_withReturns)

/-- A literal whose closing quote stands on the line of its opening one. -/
def IsClosedOnLine (t : List Char) : Prop :=
  ∃ inside, isQuotable inside = true ∧ '\n' ∉ inside ∧ t = '"' :: (inside ++ ['"'])

/-- Places on the same line where the same may start. -/
structure Place.Alike (p q : Place) : Prop where
  line_eq : p.line = q.line
  fresh_eq : p.fresh = q.fresh

theorem Place.Alike.after {p q : Place} (alike : Alike p q) (s : List Char) :
    Alike (p.after (withReturns s)) (q.after s) := by
  induction s generalizing p q with
  | nil => exact alike
  | cons c r ih =>
    by_cases feed : c = '\n'
    · rw [feed, withReturns_feed]
      exact ih ⟨congrArg (· + 1) alike.line_eq, rfl⟩
    · rw [withReturns_cons feed]
      refine ih ⟨?_, ?_⟩
      · simp only [next, alike.line_eq]
      · simp only [next, alike.fresh_eq]

theorem Place.Alike.along {p q : Place} (alike : Alike p q) (s : List Char) (a b : Nat) :
    Alike { p.after s with offset := a } { q.after s with offset := b } := by
  induction s generalizing p q with
  | nil => exact ⟨alike.line_eq, alike.fresh_eq⟩
  | cons c r ih => exact ih ⟨by simp only [next, alike.line_eq], by simp only [next, alike.fresh_eq]⟩

/-! ### Gaps -/

namespace Cut

theorem closed_of_withReturns {s : List Char} (closed : ['*', '/'] <:+: withReturns s) :
    ['*', '/'] <:+: s := by
  induction s with
  | nil => exact closed
  | cons c r ih =>
    by_cases feed : c = '\n'
    · rw [feed, withReturns_feed, List.infix_cons_iff, List.infix_cons_iff] at closed
      rcases closed with ⟨v, here⟩ | ⟨v, here⟩ | later
      · cases here
      · cases here
      · exact (ih later).trans (List.suffix_cons c r).isInfix
    · rw [withReturns_cons feed, List.infix_cons_iff] at closed
      rcases closed with ⟨v, here⟩ | later
      · obtain ⟨rfl, next⟩ := List.cons.inj here
        obtain ⟨t, rfl, -⟩ := eq_cons_of_withReturns (by decide) next.symm
        exact (List.prefix_append ['*', '/'] t).isInfix
      · exact (ih later).trans (List.suffix_cons c r).isInfix

/-- A directive that a return ends goes on over no line. -/
theorem isDirectiveBody_return {inside : List Char} (line : '\n' ∉ inside) :
    isDirectiveBody (inside ++ ['\r']) = true := by
  induction inside with
  | nil => rfl
  | cons c r ih =>
    rw [List.mem_cons, not_or] at line
    rw [List.cons_append, isDirectiveBody]
    · exact ih line.2
    · rintro t rfl next
      cases r with
      | nil => cases next
      | cons d u =>
        obtain ⟨rfl, -⟩ := List.cons.inj next
        exact line.2 List.mem_cons_self
    · rintro - next
      exact absurd next (by simp)
    · exact fun feed => line.1 feed.symm

/-- A block comment that nothing closes takes everything. -/
theorem blockComment_open {s : List Char} (unclosed : ¬ ['*', '/'] <:+: s) :
    blockComment s = ⟨s, []⟩ := by
  rcases blockComment_cases s with ⟨inside, r, -, cut⟩ | ⟨-, cut⟩
  · have whole := blockComment_whole s
    rw [cut] at whole
    exact absurd ⟨inside, r, whole⟩ unclosed
  · exact cut

end Cut

namespace Token

theorem scanFrom_return (q : Place) (s : List Char) :
    scanFrom q ('\r' :: s) = scanFrom (q.after ['\r']) s :=
  scanFrom_cut (gap?_space rfl q.fresh s)

/-- Where a piece takes the return before a line feed, the scanner might as well leave it. -/
theorem scanFrom_leave {q : Place} {piece s : List Char}
    (found : gap? q.fresh (piece ++ ['\r'] ++ '\n' :: s) = some ⟨piece ++ ['\r'], '\n' :: s⟩) :
    scanFrom q (piece ++ '\r' :: '\n' :: s) = scanFrom (q.after piece) ('\r' :: '\n' :: s) := by
  have order : piece ++ '\r' :: '\n' :: s = piece ++ ['\r'] ++ '\n' :: s := by simp
  rw [order, scanFrom_cut found, Place.after_append, scanFrom_return]

theorem gap?_openBlock {inside : List Char} (unclosed : ¬ ['*', '/'] <:+: inside) (fresh : Bool) :
    gap? fresh ('/' :: '*' :: inside) = some ⟨'/' :: '*' :: inside, []⟩ := by
  have noSpace : ¬ isSpace '/' = true := by decide
  rw [gap?, if_neg noSpace]
  simp only [Cut.blockComment_open unclosed]
  rfl

/-- A gap that nothing ends goes on to the end of the text, with returns or without. -/
theorem scanFrom_openEnd_withReturns {q : Place} {last : List Char}
    (isEnd : IsOpenEnd q.fresh last) (found : gap? q.fresh last = some ⟨last, []⟩)
    (single : last.head? = some '#' → '\n' ∉ last) :
    scanFrom q (withReturns last) = scanFrom (q.after (withReturns last)) [] := by
  -- without a line feed nothing changes, and only a block comment has one
  by_cases broken : '\n' ∈ last
  · have isBlock : ∃ inside, ¬ ['*', '/'] <:+: inside ∧ last = '/' :: '*' :: inside := by
      generalize q.fresh = fresh at isEnd
      cases isEnd with
      | nil => cases broken
      | lineComment line => exact absurd broken (by simpa using line)
      | blockComment unclosed => exact ⟨_, unclosed, rfl⟩
      | directive continued => exact absurd broken (single rfl)
    obtain ⟨inside, unclosed, rfl⟩ := isBlock
    have open_ : ¬ ['*', '/'] <:+: withReturns inside := fun closed =>
      unclosed (Cut.closed_of_withReturns closed)
    rw [withReturns_cons (by decide), withReturns_cons (by decide)]
    exact scanFrom_cut (gap?_openBlock open_ q.fresh)
  · rw [withReturns_eq broken, scanFrom_cut found]

/-- The scanner passes over a gap with returns as it does over the gap. -/
theorem scanFrom_gap_withReturns {q : Place} {s : List Char} {cut : Cut}
    (found : gap? q.fresh s = some cut)
    (single : cut.piece.head? = some '#' → '\n' ∉ cut.piece) :
    scanFrom q (withReturns s) =
      scanFrom (q.after (withReturns cut.piece)) (withReturns cut.rest) := by
  obtain ⟨piece, whole⟩ := isPiece_of_gap? found
  rw [← whole, withReturns_append]
  cases piece with
  | @blank c r space =>
    by_cases feed : c = '\n'
    · have last : gap? (q.after ['\r']).fresh ('\n' :: withReturns r) =
          some ⟨['\n'], withReturns r⟩ := rfl
      rw [feed]
      exact (scanFrom_return q _).trans (scanFrom_cut last)
    · have one : withReturns [c] = [c] := withReturns_cons feed []
      have here : gap? q.fresh ([c] ++ withReturns r) = some ⟨[c], withReturns r⟩ := by
        simp [gap?, space]
      rw [one, scanFrom_cut here]
  | @lineComment inside r line =>
    have clean : '\n' ∉ '/' :: '/' :: inside := by simpa using line
    have longer : '\n' ∉ inside ++ ['\r'] := by simpa using line
    rw [withReturns_eq clean, withReturns_feed]
    exact scanFrom_leave (gap?_lineComment longer q.fresh (withReturns r))
  | @blockComment inside r unclosed =>
    have open_ : ¬ ['*', '/'] <:+: withReturns inside := fun closed =>
      unclosed (Cut.closed_of_withReturns closed)
    have spelled : withReturns ('/' :: '*' :: (inside ++ ['*', '/'])) =
        '/' :: '*' :: withReturns inside ++ ['*', '/'] := by
      rw [withReturns_cons (by decide), withReturns_cons (by decide), withReturns_append]
      rfl
    rw [spelled]
    exact scanFrom_cut (gap?_blockComment open_ q.fresh (withReturns r))
  | @directive inside r starts body =>
    have clean : '\n' ∉ '#' :: inside := single rfl
    rw [withReturns_eq clean, withReturns_feed]
    have cut := gap?_directive (Cut.isDirectiveBody_return (List.not_mem_of_not_mem_cons clean))
      (withReturns r)
    rw [← starts] at cut
    exact scanFrom_leave cut
  | @openEnd last isEnd =>
    rw [List.append_nil] at whole
    subst whole
    change scanFrom q (withReturns last ++ []) = scanFrom (q.after (withReturns last)) []
    rw [List.append_nil]
    exact scanFrom_openEnd_withReturns isEnd found single

/-! ### Tokens -/

/-- A test that holds for no line end cuts a text at the same place with returns. -/
theorem span_withReturns {p : Char → Bool} (noFeed : p '\n' = false) (noReturn : p '\r' = false)
    (s : List Char) :
    Cut.span p (withReturns s) = ⟨(Cut.span p s).piece, withReturns (Cut.span p s).rest⟩ := by
  have clean : '\n' ∉ (Cut.span p s).piece := by
    intro member
    rw [Cut.of_mem_span member] at noFeed
    cases noFeed
  have stops := (Text.head?_withReturns noFeed noReturn _).trans (Cut.span_rest_stops p s)
  have whole := Cut.span_whole p s
  rw [← span_stop (fun c member => Cut.of_mem_span member) stops]
  conv => lhs; rw [← whole, withReturns_append, withReturns_eq clean]

theorem spares_withReturns : Spares withReturns where
  ident := span_withReturns (by decide) (by decide)
  number := span_withReturns (by decide) (by decide)
  dots t := by rw [withReturns_cons (by decide), withReturns_cons (by decide)]
  eq_dots same := by
    obtain ⟨u, rfl, next⟩ := eq_cons_of_withReturns (by decide) same
    obtain ⟨v, rfl, -⟩ := eq_cons_of_withReturns (by decide) next
    exact ⟨v, rfl⟩

/-- A token is read alike in front of lines that end with returns, if it is closed on its line where
it is a literal. -/
theorem lexeme_withReturns {c : Char} {r : List Char}
    (closed : c = '"' → IsClosedOnLine (lexeme c r).cut.piece) :
    lexeme c (withReturns r) =
      { lexeme c r with cut := ⟨(lexeme c r).cut.piece, withReturns (lexeme c r).cut.rest⟩ } := by
  by_cases quote : c = '"'
  · have noStart : ¬ Text.isIdentStart c = true := by rw [quote]; decide
    have noDigit : ¬ c.isDigit = true := by rw [quote]; decide
    obtain ⟨inside, quotable, line, text⟩ := closed quote
    have piece : (lexeme c r).cut.piece = c :: (literalBody r).cut.piece := by
      unfold lexeme
      rw [if_neg noStart, if_neg noDigit, if_pos quote]
      rfl
    rw [piece] at text
    have whole := literalBody_whole r
    rw [(List.cons.inj text).2, List.append_assoc, List.singleton_append] at whole
    generalize (literalBody r).cut.rest = rest at whole
    subst whole
    unfold lexeme
    rw [if_neg noStart, if_neg noDigit, if_pos quote, if_neg noStart, if_neg noDigit,
      if_pos quote, withReturns_append, withReturns_eq line, withReturns_cons (by decide),
      literalBody_quoted quotable, literalBody_quoted quotable]
    rfl
  · exact spares_withReturns.lexeme_eq quote r

theorem exists_literal (r : List Char) : ∃ value, (lexeme '"' r).kind = .literal value := by
  have noStart : ¬ Text.isIdentStart '"' = true := by decide
  have noDigit : ¬ '"'.isDigit = true := by decide
  unfold lexeme
  rw [if_neg noStart, if_neg noDigit, if_pos rfl]
  exact ⟨_, rfl⟩

def reading (t : Token) : Kind × Nat := (t.kind, t.span.line)

/-- With returns at its line ends, a text has the same tokens on the same lines. -/
theorem reading_scanFrom {p q : Place} {s : List Char} (alike : q.Alike p)
    (closed : ∀ x ∈ pieces p.fresh s, x.isLiteral = true → IsClosedOnLine x.chars)
    (single : ∀ x ∈ pieces p.fresh s, x.isDirective = true → '\n' ∉ x.chars) :
    (scanFrom q (withReturns s)).all.map reading = (scanFrom p s).all.map reading := by
  -- by the cases of the scanner on the text without returns; the places differ in their offsets only
  fun_induction scanFrom p s generalizing q with
  | case1 p s cut found ih =>
    rw [pieces_gap found, ← Place.fresh_after_eq, List.forall_mem_cons] at closed single
    have here : cut.piece.head? = some '#' → '\n' ∉ cut.piece := by
      intro hash
      exact single.1 (by simp [Piece.isDirective, Piece.isGap, hash])
    rw [← alike.fresh_eq] at found
    rw [scanFrom_gap_withReturns found here]
    exact ih (alike.after cut.piece) closed.2 single.2
  | case2 p noGap =>
    simp [withReturns, scanFrom_nil, Stream.all, reading, alike.line_eq]
  | case3 p c r noGap l stop =>
    rename_i ih
    rw [pieces_token noGap, ← Place.fresh_after_eq, List.forall_mem_cons] at closed single
    have literal : c = '"' → IsClosedOnLine l.cut.piece := by
      rintro rfl
      obtain ⟨value, kind⟩ := exists_literal r
      exact closed.1 (by simp [Piece.isLiteral, kind])
    obtain ⟨noSpace, noComment, noHash⟩ := gap?_eq_none_iff.mp noGap
    have noFeed : c ≠ '\n' := by
      rintro rfl
      cases noSpace
    have noGap' : gap? q.fresh (c :: withReturns r) = none := by
      refine gap?_eq_none_iff.mpr ⟨noSpace, fun slash => ?_, fun hash => ?_⟩
      · rw [Text.head?_withReturns (by decide) (by decide), noComment slash]
      · rw [alike.fresh_eq, noHash hash]
    rw [withReturns_cons noFeed, scanFrom_cons noGap', lexeme_withReturns literal]
    have later := ih (alike.along l.cut.piece (q.offset + l.width) stop) closed.2 single.2
    have here : reading ⟨l.kind, ⟨q.offset, q.offset + l.width, q.line⟩⟩ =
        reading ⟨l.kind, ⟨p.offset, stop, p.line⟩⟩ := by
      simp only [reading, alike.line_eq]
    exact congrArg₂ List.cons here later

/-- The tokens of a source and their lines do not depend on how its lines end, where every literal
is closed on its line and every directive ends with its line. -/
theorem scan_withReturns {source : List Char}
    (closed : ∀ x ∈ pieces true source, x.isLiteral = true → IsClosedOnLine x.chars)
    (single : ∀ x ∈ pieces true source, x.isDirective = true → '\n' ∉ x.chars) (line : Nat) :
    (scan (withReturns source) line).all.map reading = (scan source line).all.map reading :=
  reading_scanFrom ⟨rfl, rfl⟩ closed single

/-- A directive, a literal, a comment over two lines and one up to the end of its line. -/
def sampleLines : List Char := "#a\n\"b\" /*\n*/ c//\n".toList

theorem scan_withReturns_sample :
    (scan (withReturns sampleLines) 1).all.map reading =
      [(.literal "b", 2), (.ident "c", 3), (.stop, 4)] := by
  have literals : (pieces true sampleLines).filter (·.isLiteral) =
      [⟨some (.literal "b"), "\"b\"".toList⟩] := by
    decide +kernel
  have directives : (pieces true sampleLines).filter (·.isDirective) =
      [⟨none, "#a".toList⟩] := by
    decide +kernel
  have tokens : (scan sampleLines 1).all.map reading =
      [(.literal "b", 2), (.ident "c", 3), (.stop, 4)] := by
    decide +kernel
  rw [← tokens]
  refine scan_withReturns (fun x member literal => ?_) (fun x member directive => ?_) 1
  · have same := List.mem_filter.mpr ⟨member, literal⟩
    rw [literals, List.mem_singleton] at same
    exact ⟨['b'], rfl, by decide, congrArg Piece.chars same⟩
  · have same := List.mem_filter.mpr ⟨member, directive⟩
    rw [directives, List.mem_singleton] at same
    rw [same]
    decide

def continuedLine : List Char := "#a\\\nb".toList

/-- Such a directive ends at the line feed if there is a return before it, so what it goes on with
is read as tokens. -/
theorem not_alike_continued : '\r' ∉ continuedLine ∧
    (∀ x ∈ pieces true continuedLine, x.isLiteral = true → IsClosedOnLine x.chars) ∧
      (scan continuedLine 1).all.map reading = [(.stop, 2)] ∧
      (scan (withReturns continuedLine) 1).all.map reading = [(.ident "b", 2), (.stop, 2)] := by
  have read : (pieces true continuedLine).filter (·.isLiteral) = [] := by decide +kernel
  refine ⟨by decide, ?_, by decide +kernel, by decide +kernel⟩
  exact fun x member literal => absurd literal (List.filter_eq_nil_iff.mp read x member)

end Token

end ScriptGlue
