import ScriptGlue.Proofs.Source.Order
import ScriptGlue.Proofs.Source.Pieces
import ScriptGlue.Proofs.Text.Collapse

/-!
# Squeezed sources

A source on one line without literals has the same tokens once its blanks are squeezed. Blanks part
tokens and stand inside of comments, but none is part of a token and none is lost between two
characters, so nothing that stood apart comes together. The scanner holds blanks back in one text
until it meets something solid, where the other text has a single space.
-/
namespace ScriptGlue

open Token (Kind)
open Text (squeeze)

/-- One line without literals, with no blanks but those that part tokens. -/
structure IsPlainLine (s : List Char) : Prop where
  spaces : ∀ c ∈ s, Text.isBlank c = true → c = ' ' ∨ c = '\t' ∨ c = '\r'
  unquoted : '"' ∉ s

namespace IsPlainLine

variable {s t : List Char}

theorem mono (plain : IsPlainLine s) (part : t ⊆ s) : IsPlainLine t :=
  ⟨fun c member => plain.spaces c (part member), fun member => plain.unquoted (part member)⟩

theorem no_feed (plain : IsPlainLine s) : '\n' ∉ s := fun member =>
  absurd (plain.spaces _ member (by decide)) (by decide)

theorem isSpace_eq (plain : IsPlainLine s) {c : Char} (member : c ∈ s) :
    Token.isSpace c = Text.isBlank c := by
  cases blank : Text.isBlank c with
  | false => exact Word.isSpace_of_isBlank blank
  | true => rcases plain.spaces c member blank with rfl | rfl | rfl <;> rfl

end IsPlainLine

theorem Text.feed_not_mem_squeeze (held : Bool) (s : List Char) : '\n' ∉ squeeze held s :=
  fun member => absurd (Text.eq_space_of_mem_squeeze member (by decide)) (by decide)

/-! ### Gaps -/

/-- Behind something solid on its line, no directive can start. -/
theorem Place.fresh_after_solid {c : Char} {r : List Char} (solid : Text.isBlank c = false)
    (line : '\n' ∉ r) (p : Place) : (p.after (c :: r)).fresh = false := by
  have first : (p.next c).fresh = false := by
    have noFeed : (c == '\n') = false := by
      rw [beq_eq_false_iff_ne]
      rintro rfl
      exact absurd solid (by decide)
    rw [next, noFeed, solid, Bool.and_false, Bool.or_false]
  have stays (q : Place) (off : q.fresh = false) : (q.after r).fresh = false := by
    induction r generalizing q with
    | nil => exact off
    | cons d r ih =>
      rw [List.mem_cons, not_or] at line
      refine ih line.2 (q.next d) ?_
      rw [next, off, Bool.false_and, Bool.or_false, beq_eq_false_iff_ne]
      exact Ne.symm line.1
  exact stays _ first

namespace Cut

theorem line_all {s : List Char} (line : '\n' ∉ s) : Cut.line s = ⟨s, []⟩ := by
  have whole := span_stop (p := (· ≠ '\n')) (w := s) (s := [])
    (fun c member => decide_eq_true fun same => line (same ▸ member)) rfl
  rwa [List.append_nil] at whole

theorem directive_all {s : List Char} (line : '\n' ∉ s) : Cut.directive s = ⟨s, []⟩ := by
  induction s with
  | nil => rfl
  | cons c r ih =>
    rw [List.mem_cons, not_or] at line
    rw [directive, ih line.2]
    · rfl
    · rintro t - rfl
      exact line.2 List.mem_cons_self
    · exact Ne.symm line.1

theorem rest_blockComment_cons {c : Char} {r : List Char}
    (noClose : c = '*' → r.head? ≠ some '/') :
    (blockComment (c :: r)).rest = (blockComment r).rest := by
  rw [blockComment]
  · rfl
  · rintro t star rfl
    exact noClose star rfl

/-- A comment ends at the same mark when blanks are squeezed, for there are none in the mark. -/
theorem rest_blockComment_squeeze (held : Bool) (s : List Char) :
    (blockComment (squeeze held s)).rest = squeeze false (blockComment s).rest := by
  have past (held : Bool) (c : Char) (t : List Char) : (blockComment
      (if held then ' ' :: c :: t else c :: t)).rest = (blockComment (c :: t)).rest := by
    cases held with
    | false => rfl
    | true => exact rest_blockComment_cons fun star => absurd star (by decide)
  fun_induction blockComment s generalizing held with
  | case1 => rfl
  | case2 r =>
    have star : ¬ Text.isBlank '*' = true := by decide
    have slash : ¬ Text.isBlank '/' = true := by decide
    rw [squeeze, if_neg star, past, squeeze, if_neg slash]
    rfl
  | case3 c r noClose ih =>
    rw [cons_rest, squeeze]
    split
    · exact ih true
    · rw [past, rest_blockComment_cons, ih false]
      intro star
      rw [ne_eq, Text.head?_squeeze (by decide), List.head?_eq_some_iff]
      rintro ⟨t, rfl⟩
      exact noClose t star rfl

end Cut

namespace Token

/-- A comment or a directive is passed over alike when what follows its first mark is squeezed. -/
theorem gap?_squeeze {fresh : Bool} {c : Char} {r : List Char} {cut : Cut}
    (solid : Text.isBlank c = false) (line : '\n' ∉ r) (found : gap? fresh (c :: r) = some cut) :
    ∃ inside, gap? fresh (c :: squeeze false r) = some ⟨c :: inside, squeeze false cut.rest⟩ := by
  have noSpace : ¬ isSpace c = true := by simp [Word.isSpace_of_isBlank solid]
  have slash : ¬ Text.isBlank '/' = true := by decide
  have star : ¬ Text.isBlank '*' = true := by decide
  unfold gap? at found
  simp only [if_neg noSpace] at found
  split at found
  · rename_i t
    rw [Cut.line_all line] at found
    cases found
    have line' := Text.feed_not_mem_squeeze false ('/' :: t)
    rw [squeeze, if_neg slash, if_neg (by decide)] at line' ⊢
    exact ⟨_, by rw [gap?, if_neg noSpace, Cut.line_all line']; rfl⟩
  · rename_i t
    cases found
    rw [squeeze, if_neg star, if_neg (by decide)]
    refine ⟨'*' :: (Cut.blockComment (squeeze false t)).piece, ?_⟩
    rw [Cut.cons_rest, Cut.cons_rest, ← Cut.rest_blockComment_squeeze false t]
    rfl
  · split at found
    · rename_i start
      rw [Cut.directive_all line] at found
      cases found
      have line' := Text.feed_not_mem_squeeze false r
      exact ⟨_, by rw [gap?, if_neg noSpace, Cut.directive_all line']; exact if_pos start⟩
    · cases found
  · cases found

/-- A space that is left of blanks before something solid is passed over. -/
theorem scanFrom_held (q : Place) (held : Bool) (s : List Char) :
    scanFrom q (Text.heldSpace held ++ s) = scanFrom (q.after (Text.heldSpace held)) s := by
  cases held with
  | false => rfl
  | true => exact scanFrom_space q s

/-! ### Tokens -/

/-- A test that holds for no blank cuts a text at the same place when it is squeezed. -/
theorem span_squeeze {p : Char → Bool} (solid : ∀ c, p c = true → Text.isBlank c = false)
    (s : List Char) : Cut.span p (squeeze false s) =
      ⟨(Cut.span p s).piece, squeeze false (Cut.span p s).rest⟩ := by
  have inside (c : Char) (member : c ∈ (Cut.span p s).piece) : p c = true := Cut.of_mem_span member
  have stops := (Text.head?_any_squeeze solid _).trans (Cut.span_rest_stops p s)
  rw [← span_stop inside stops,
    ← Text.squeeze_false_append fun c member => solid c (inside c member), Cut.span_whole]

theorem spares_squeeze : Spares (squeeze false) where
  ident := span_squeeze fun _ => Text.isBlank_of_isIdentRest
  number := span_squeeze fun _ => isBlank_of_isNumberRest
  dots t := Text.squeeze_false_append (w := ['.', '.']) (by decide) t
  eq_dots {r t} same := by
    have dots := Text.dots_squeeze r
    rw [same] at dots
    obtain ⟨u, rfl⟩ := List.isPrefixOf_iff_prefix.mp dots.symm
    exact ⟨u, rfl⟩

/-- A token and the same one of the squeezed source: a piece of both without blanks, with the same
left behind it. -/
structure Moved (source source' : List Char) (t t' : Token) : Prop where
  kind_eq : t'.kind = t.kind
  held : ∃ piece rest, piece ≠ [] ∧ (∀ c ∈ piece, Text.isBlank c = false) ∧
    t.span.Holds source piece rest ∧ t'.span.Holds source' piece (squeeze false rest)

theorem opensComment_solid (c : Char) (opens : opensComment c = true) : Text.isBlank c = false := by
  rw [opensComment, Bool.or_eq_true, beq_iff_eq, beq_iff_eq] at opens
  rcases opens with rfl | rfl <;> decide

theorem squeeze_solid {c : Char} (solid : Text.isBlank c = false) (held : Bool) (r : List Char) :
    squeeze held (c :: r) = Text.heldSpace held ++ c :: squeeze false r := by
  have front := Text.squeeze_append (w := [c]) (by simp) (by simpa using solid) held r
  rwa [List.singleton_append, List.append_assoc, List.singleton_append] at front

/-- From two places on, the same is left of a source and of the squeezed one. The blanks before the
first place are still ahead in the squeezed source if they are `held`. -/
structure SameLeft (source source' : List Char) (p q : Place) (held : Bool) (s : List Char) :
    Prop where
  fresh_eq : q.fresh = p.fresh
  rest_eq : source.drop p.offset = s
  rest_eq' : source'.drop q.offset = squeeze held s

namespace SameLeft

variable {source source' : List Char} {p q : Place} {held : Bool} {c : Char} {r : List Char}

/-- A blank is held back. -/
theorem blank (same : SameLeft source source' p q held (c :: r)) (blank : Text.isBlank c = true)
    (noFeed : c ≠ '\n') : SameLeft source source' (p.after [c]) q true r where
  fresh_eq := by
    rw [same.fresh_eq, Place.fresh_after_singleton, blank, Bool.and_true,
      beq_eq_false_iff_ne.mpr noFeed, Bool.false_or]
  rest_eq := by
    rw [Place.offset_after, ← List.drop_drop, same.rest_eq]
    rfl
  rest_eq' := by
    rw [same.rest_eq', squeeze, if_pos blank]

/-- Before something solid, what is held is let out. -/
theorem letOut (same : SameLeft source source' p q held (c :: r))
    (solid : Text.isBlank c = false) :
    SameLeft source source' p (q.after (Text.heldSpace held)) false (c :: r) where
  fresh_eq := by
    cases held with
    | false => exact same.fresh_eq
    | true =>
      rw [← same.fresh_eq, Text.heldSpace, if_pos rfl, Place.fresh_after_singleton]
      cases q.fresh <;> rfl
  rest_eq := same.rest_eq
  rest_eq' := by
    rw [Place.offset_after, ← List.drop_drop, same.rest_eq', squeeze_solid solid held,
      List.drop_left, squeeze_solid solid false]
    rfl

/-- Both texts are left behind a gap. -/
theorem gap (same : SameLeft source source' p q false (c :: r))
    (solid : Text.isBlank c = false) (line : '\n' ∉ r) {piece piece' rest : List Char}
    (whole : c :: piece ++ rest = c :: r)
    (whole' : c :: piece' ++ squeeze false rest = c :: squeeze false r) :
    SameLeft source source' (p.after (c :: piece)) (q.after (c :: piece')) false rest where
  fresh_eq := by
    have inside : '\n' ∉ piece := fun member => line (by
      rw [← (List.cons.inj whole).2]
      exact List.mem_append_left rest member)
    have inside' : '\n' ∉ piece' := fun member => Text.feed_not_mem_squeeze false r (by
      rw [← (List.cons.inj whole').2]
      exact List.mem_append_left _ member)
    rw [Place.fresh_after_solid solid inside, Place.fresh_after_solid solid inside']
  rest_eq := by
    rw [Place.offset_after, ← List.drop_drop, same.rest_eq, ← whole, List.drop_left]
  rest_eq' := by
    have front : squeeze false (c :: r) = c :: squeeze false r := squeeze_solid solid false r
    rw [Place.offset_after, ← List.drop_drop, same.rest_eq', front, ← whole', List.drop_left]

/-- Both texts are left behind a token. -/
theorem token {piece rest : List Char} (same : SameLeft source source' p q false (piece ++ rest))
    (solid : ∀ d ∈ piece, Text.isBlank d = false) :
    SameLeft source source' { p.after piece with offset := p.offset + piece.length }
      { q.after piece with offset := q.offset + piece.length } false rest where
  fresh_eq := by
    simp only [Place.fresh_after_eq, same.fresh_eq]
  rest_eq := by
    rw [← List.drop_drop, same.rest_eq, List.drop_left]
  rest_eq' := by
    rw [← List.drop_drop, same.rest_eq', Text.squeeze_false_append solid, List.drop_left]

end SameLeft

/-- A gap starts with the character that it is told by. -/
theorem exists_gap_cons {fresh : Bool} {c : Char} {r : List Char} {cut : Cut}
    (found : gap? fresh (c :: r) = some cut) : ∃ inside, cut.piece = c :: inside := by
  have whole := (isPiece_of_gap? found).2
  cases piece : cut.piece with
  | nil =>
    have shorter := gap?_rest_lt found
    rw [piece, List.nil_append] at whole
    rw [whole] at shorter
    exact absurd shorter (Nat.lt_irrefl _)
  | cons d t =>
    rw [piece] at whole
    exact ⟨t, by rw [(List.cons.inj whole).1]⟩

namespace SameLeft

variable {source source' : List Char} {p q : Place} {held : Bool} {s : List Char}

/-- A gap is passed over in both texts, or held back in one of them if it is a blank. -/
theorem pass (same : SameLeft source source' p q held s) (plain : IsPlainLine s) {cut : Cut}
    (found : gap? p.fresh s = some cut) :
    ∃ q' held', SameLeft source source' (p.after cut.piece) q' held' cut.rest ∧
      scanFrom q (squeeze held s) = scanFrom q' (squeeze held' cut.rest) := by
  have whole := (isPiece_of_gap? found).2
  cases s with
  | nil => cases found
  | cons c r =>
    have line : '\n' ∉ c :: r := plain.no_feed
    rw [List.mem_cons, not_or] at line
    cases blank : Text.isBlank c with
    | true =>
      have space := (plain.isSpace_eq List.mem_cons_self).trans blank
      rw [gap?_space space, Option.some.injEq] at found
      subst found
      refine ⟨q, true, same.blank blank (Ne.symm line.1), ?_⟩
      rw [squeeze, if_pos blank]
    | false =>
      obtain ⟨inside, first⟩ := exists_gap_cons found
      obtain ⟨inside', found'⟩ := gap?_squeeze blank line.2 found
      have start := same.letOut blank
      rw [← start.fresh_eq] at found'
      rw [first] at whole ⊢
      refine ⟨_, false, start.gap blank line.2 whole (isPiece_of_gap? found').2, ?_⟩
      rw [squeeze_solid blank, scanFrom_held, scanFrom_cut found']

/-- A token is met in both texts, and the same is left behind it. -/
theorem meet {c : Char} {r : List Char} (same : SameLeft source source' p q held (c :: r))
    (plain : IsPlainLine (c :: r)) (noGap : gap? p.fresh (c :: r) = none) :
    ∃ q' t', Moved source source'
        ⟨(lexeme c r).kind, ⟨p.offset, p.offset + (lexeme c r).width, p.line⟩⟩ t' ∧
      SameLeft source source'
        { p.after (lexeme c r).cut.piece with offset := p.offset + (lexeme c r).width } q' false
        (lexeme c r).cut.rest ∧
      scanFrom q (squeeze held (c :: r)) =
        (scanFrom q' (squeeze false (lexeme c r).cut.rest)).push t' := by
  have form := isLexeme_lexeme c r
  obtain ⟨noSpace, noComment, noHash⟩ := gap?_eq_none_iff.mp noGap
  have blank : Text.isBlank c = false := by
    rw [← plain.isSpace_eq List.mem_cons_self, noSpace]
  have noQuote : c ≠ '"' := fun quote => plain.unquoted (quote ▸ List.mem_cons_self)
  obtain ⟨solid, width⟩ := form.solid noQuote blank
  have start := same.letOut blank
  have noGap' : gap? (q.after (Text.heldSpace held)).fresh (c :: squeeze false r) = none := by
    refine gap?_eq_none_iff.mpr ⟨noSpace, fun slash => ?_, fun hash => ?_⟩
    · rw [Text.head?_any_squeeze opensComment_solid, noComment slash]
    · rw [start.fresh_eq, noHash hash]
  rw [← form.whole] at start
  have next := start.token solid
  rw [← width] at next
  let there := q.after (Text.heldSpace held)
  refine ⟨_, ⟨(lexeme c r).kind, there.offset, there.offset + (lexeme c r).width, there.line⟩,
    ⟨rfl, (lexeme c r).cut.piece, (lexeme c r).cut.rest, ?_, solid, ⟨start.rest_eq, ?_⟩,
      ⟨?_, ?_⟩⟩, next, ?_⟩
  · obtain ⟨t, piece, -⟩ := lexeme_alone c r
    simp [piece]
  · rw [← width]
  · rw [start.rest_eq', Text.squeeze_false_append solid]
  · rw [← width]
  · rw [squeeze_solid blank, scanFrom_held, scanFrom_cons noGap', spares_squeeze.lexeme_eq noQuote]

end SameLeft

/-- The scanner meets the same tokens in a plain line and in the squeezed one. -/
theorem moved_scanFrom {source source' : List Char} {p q : Place} {held : Bool} {s : List Char}
    (plain : IsPlainLine s) (same : SameLeft source source' p q held s) :
    List.Forall₂ (Moved source source') (scanFrom p s).tokens
      (scanFrom q (squeeze held s)).tokens := by
  -- by the cases of the scanner on the plain line; the squeezed one keeps up with it
  fun_induction scanFrom p s generalizing q held with
  | case1 p s cut found ih =>
    have later : IsPlainLine cut.rest :=
      plain.mono ((isPiece_of_gap? found).2 ▸ List.subset_append_right cut.piece cut.rest)
    obtain ⟨q', held', next, scanned⟩ := same.pass plain found
    rw [scanned]
    exact ih later next
  | case2 p noGap =>
    rw [squeeze, tokens_scanFrom_nil]
    exact .nil
  | case3 p c r noGap l =>
    rename_i ih
    have later : IsPlainLine l.cut.rest :=
      plain.mono ((isLexeme_lexeme c r).whole ▸ List.subset_append_right l.cut.piece l.cut.rest)
    obtain ⟨q', t', moved, next, scanned⟩ := same.meet plain noGap
    rw [scanned]
    exact .cons moved (ih later next)

/-! ### A whole line -/

theorem fresh_after_blanks {gap : List Char} (blank : ∀ c ∈ gap, Text.isBlank c = true) {p : Place}
    (fresh : p.fresh = true) : (p.after gap).fresh = true := by
  induction gap generalizing p with
  | nil => exact fresh
  | cons c r ih =>
    refine ih (fun d member => blank d (List.mem_cons_of_mem c member)) ?_
    rw [Place.next, fresh, blank c List.mem_cons_self, Bool.and_self, Bool.or_true]

/-- A plain line has the tokens of the collapsed one, which starts with the first of them. -/
theorem moved_scan {s : String} (plain : IsPlainLine s.toList) (line : Nat) :
    List.Forall₂ (Moved s.toList (Text.collapse s).toList) (scan s.toList line).tokens
      (scan (Text.collapse s).toList line).tokens := by
  let gap := s.toList.takeWhile Text.isBlank
  let inner := s.toList.dropWhile Text.isBlank
  have whole : gap ++ inner = s.toList := List.takeWhile_append_dropWhile
  have blank : ∀ c ∈ gap, Text.isBlank c = true := fun c member => List.mem_takeWhile_imp member
  have spaces : ∀ c ∈ gap, isSpace c = true := fun c member => by
    rw [plain.isSpace_eq (whole ▸ List.mem_append_left inner member), blank c member]
  have past : scan s.toList line = scanFrom ((Place.first line).after gap) inner := by
    rw [scan, ← whole]
    exact scanFrom_gap (IsGap.of_blanks spaces true) rfl inner
  have collapsed : (Text.collapse s).toList = squeeze false inner := Text.toList_collapse s
  rw [past, scan, collapsed]
  refine moved_scanFrom (plain.mono (whole ▸ List.subset_append_right gap inner)) ⟨?_, ?_, rfl⟩
  · rw [fresh_after_blanks blank rfl]
    rfl
  · rw [Place.offset_after, ← whole]
    exact (congrArg (List.drop · _) (Nat.zero_add _)).trans List.drop_left

/-- Tokens in order, paired with those of the squeezed source. -/
structure MovedRow (source source' : List Char) (pairs : List (Token × Token)) : Prop where
  each : ∀ x ∈ pairs, Moved source source' x.1 x.2
  ordered : (pairs.map Prod.fst).Pairwise fun a b => a.span.stop ≤ b.span.start
  ordered' : (pairs.map Prod.snd).Pairwise fun a b => a.span.stop ≤ b.span.start

namespace MovedRow

variable {source source' : List Char} {pairs part : List (Token × Token)}

theorem sublist (row : MovedRow source source' pairs) (sub : part.Sublist pairs) :
    MovedRow source source' part :=
  ⟨fun x member => row.each x (sub.subset member), row.ordered.sublist (sub.map _),
    row.ordered'.sublist (sub.map _)⟩

theorem kinds_eq (row : MovedRow source source' pairs) :
    pairs.map (·.2.kind) = pairs.map (·.1.kind) :=
  List.map_congr_left fun x member => (row.each x member).kind_eq

end MovedRow

/-- Streams with the same tokens to read from a source and from the squeezed one. -/
def Stream.Moved (source source' : List Char) (s s' : Stream) : Prop :=
  ∃ pairs, MovedRow source source' pairs ∧ s.tokens = pairs.map Prod.fst ∧
    s'.tokens = pairs.map Prod.snd

/-- A collapsed line has the tokens of the line, moved. -/
theorem stream_moved_scan {s : String} (plain : IsPlainLine s.toList) (line : Nat) :
    Stream.Moved s.toList (Text.collapse s).toList (scan s.toList line)
      (scan (Text.collapse s).toList line) := by
  have moved := moved_scan plain line
  have first := List.map_fst_zip (Nat.le_of_eq moved.length_eq)
  have second := List.map_snd_zip (Nat.le_of_eq moved.length_eq.symm)
  refine ⟨(scan s.toList line).tokens.zip (scan (Text.collapse s).toList line).tokens,
    ⟨?_, ?_, ?_⟩, first.symm, second.symm⟩
  · exact fun x member => (List.forall₂_iff_zip.mp moved).2 member
  · rw [first]
    exact ordered_scanFrom _ _
  · rw [second]
    exact ordered_scanFrom _ _

end Token

end ScriptGlue
