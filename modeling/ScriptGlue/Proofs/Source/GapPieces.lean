import ScriptGlue.Proofs.Source.Gap
import ScriptGlue.Proofs.Source.Lexeme

/-!
# Gaps taken apart

The scanner takes a gap in pieces: a blank, a comment or a directive at a time. The end of the
source may cut the last of them off. All that stands before a token is a gap, and the scanner stops
behind it where a token starts or the source ends.
-/
namespace ScriptGlue

/-- All line feeds of a directive have a backslash right before them. -/
def IsContinued (inside : List Char) : Prop :=
  ∀ a b, inside = a ++ '\n' :: b → a.getLast? = some '\\'

/-- What the end of the source may cut off between words: a comment or a directive. -/
inductive IsOpenEnd : Bool → List Char → Prop where
  | nil (fresh : Bool) : IsOpenEnd fresh []
  | lineComment {fresh : Bool} {inside : List Char} (line : '\n' ∉ inside) :
      IsOpenEnd fresh ('/' :: '/' :: inside)
  | blockComment {fresh : Bool} {inside : List Char} (unclosed : ¬ ['*', '/'] <:+: inside) :
      IsOpenEnd fresh ('/' :: '*' :: inside)
  | directive {inside : List Char} (continued : IsContinued inside) :
      IsOpenEnd true ('#' :: inside)

theorem IsContinued.of_noFeed {inside : List Char} (line : '\n' ∉ inside) : IsContinued inside := by
  rintro a b rfl
  exact absurd (by simp) line

theorem IsContinued.cons {c : Char} {r : List Char} (continued : IsContinued r)
    (noFeed : c ≠ '\n') : IsContinued (c :: r) := by
  intro a b whole
  cases a with
  | nil => exact absurd (List.cons.inj whole).1 noFeed
  | cons d t =>
    obtain ⟨rfl, rest⟩ := List.cons.inj whole
    rw [List.getLast?_cons, continued t b rest]
    rfl

theorem IsContinued.pair {r : List Char} (continued : IsContinued r) :
    IsContinued ('\\' :: '\n' :: r) := by
  intro a b whole
  match a with
  | [] => cases whole
  | [d] =>
    cases whole
    rfl
  | d :: e :: t =>
    have rest := (List.cons.inj (List.cons.inj whole).2).2
    rw [List.getLast?_cons_cons, List.getLast?_cons, continued t b rest]
    rfl

namespace Cut

theorem blockComment_whole (s : List Char) :
    (blockComment s).piece ++ (blockComment s).rest = s := by
  fun_induction blockComment s with
  | case1 | case2 => rfl
  | case3 c r _ ih => exact congrArg (c :: ·) ih

theorem directive_whole (s : List Char) : (directive s).piece ++ (directive s).rest = s := by
  fun_induction directive s with
  | case1 | case3 => rfl
  | case2 r ih => exact congrArg ('\\' :: '\n' :: ·) ih
  | case4 c r _ _ ih => exact congrArg (c :: ·) ih

/-- A line ends at a line feed, or takes everything. -/
theorem line_cases (s : List Char) :
    '\n' ∉ (line s).piece ∧ ((∃ r, (line s).rest = '\n' :: r) ∨ (line s).rest = []) := by
  constructor
  · intro member
    exact absurd (of_mem_span member) (by decide)
  · have stops := span_rest_stops (· ≠ '\n') s
    cases rest : (line s).rest with
    | nil => exact .inr rfl
    | cons c r =>
      rw [line] at rest
      rw [rest] at stops
      exact .inl ⟨r, by rw [show c = '\n' by simpa using stops]⟩

/-- A block comment ends with the first closing mark, or takes everything. -/
theorem blockComment_cases (s : List Char) :
    (∃ inside r, ¬ ['*', '/'] <:+: inside ∧ blockComment s = ⟨inside ++ ['*', '/'], r⟩) ∨
      (¬ ['*', '/'] <:+: s ∧ blockComment s = ⟨s, []⟩) := by
  fun_induction blockComment s with
  | case1 => exact .inr ⟨by simp, rfl⟩
  | case2 r => exact .inl ⟨[], r, by simp, rfl⟩
  | case3 c r noMark ih =>
    have unclosed : ∀ t u, r = t ++ u → ¬ ['*', '/'] <:+: t → ¬ ['*', '/'] <:+: c :: t := by
      rintro t u whole inner closed
      rcases List.infix_cons_iff.mp closed with ⟨v, here⟩ | later
      · obtain ⟨rfl, rfl⟩ := List.cons.inj here
        exact noMark (v ++ u) rfl whole
      · exact inner later
    have whole := blockComment_whole r
    rcases ih with ⟨inside, t, inner, cut⟩ | ⟨inner, cut⟩
    · rw [cut, List.append_assoc] at whole
      exact .inl ⟨c :: inside, t, unclosed inside _ whole.symm inner, by rw [cut]; rfl⟩
    · exact .inr ⟨unclosed r [] (List.append_nil r).symm inner, by rw [cut]; rfl⟩

/-- A directive ends before the first line feed without a backslash, or takes everything. -/
theorem directive_cases (s : List Char) :
    (∃ inside r, isDirectiveBody inside = true ∧ directive s = ⟨inside, '\n' :: r⟩) ∨
      (IsContinued s ∧ directive s = ⟨s, []⟩) := by
  fun_induction directive s with
  | case1 => exact .inr ⟨.of_noFeed (by simp), rfl⟩
  | case2 r ih =>
    rcases ih with ⟨inside, t, body, cut⟩ | ⟨continued, cut⟩
    · exact .inl ⟨'\\' :: '\n' :: inside, t, body, by rw [cut]; rfl⟩
    · exact .inr ⟨continued.pair, by rw [cut]; rfl⟩
  | case3 r => exact .inl ⟨[], r, rfl, rfl⟩
  | case4 c r noPair noFeed ih =>
    rcases ih with ⟨inside, t, body, cut⟩ | ⟨continued, cut⟩
    · have whole := directive_whole r
      rw [cut] at whole
      refine .inl ⟨c :: inside, t, ?_, by rw [cut]; rfl⟩
      rw [isDirectiveBody]
      · exact body
      · rintro u rfl rfl
        exact noPair _ rfl whole.symm
      · rintro rfl rfl
        exact noPair _ rfl whole.symm
      · exact noFeed
    · exact .inr ⟨continued.cons noFeed, by rw [cut]; rfl⟩

end Cut

/-- The pieces that the scanner takes off a gap. A line comment or a directive leaves the line feed
to the next piece. -/
inductive IsPiece (fresh : Bool) : Cut → Prop where
  | blank {c : Char} {r : List Char} (space : Token.isSpace c = true) : IsPiece fresh ⟨[c], r⟩
  | lineComment {inside r : List Char} (line : '\n' ∉ inside) :
      IsPiece fresh ⟨'/' :: '/' :: inside, '\n' :: r⟩
  | blockComment {inside r : List Char} (unclosed : ¬ ['*', '/'] <:+: inside) :
      IsPiece fresh ⟨'/' :: '*' :: (inside ++ ['*', '/']), r⟩
  | directive {inside r : List Char} (starts : fresh = true)
      (body : isDirectiveBody inside = true) : IsPiece fresh ⟨'#' :: inside, '\n' :: r⟩
  | openEnd {last : List Char} (isEnd : IsOpenEnd fresh last) : IsPiece fresh ⟨last, []⟩

namespace IsPiece

theorem of_line (fresh : Bool) (s : List Char) :
    IsPiece fresh (((Cut.line s).cons '/').cons '/') := by
  obtain ⟨line, ends⟩ := Cut.line_cases s
  cases cut : Cut.line s with
  | mk inside rest =>
    rw [cut] at line ends
    rcases ends with ⟨r, rfl⟩ | rfl
    · exact .lineComment line
    · exact .openEnd (.lineComment line)

theorem of_blockComment (fresh : Bool) (s : List Char) :
    IsPiece fresh (((Cut.blockComment s).cons '*').cons '/') := by
  rcases Cut.blockComment_cases s with ⟨inside, r, unclosed, cut⟩ | ⟨unclosed, cut⟩
  · rw [cut]
    exact .blockComment unclosed
  · rw [cut]
    exact .openEnd (.blockComment unclosed)

theorem of_directive (s : List Char) : IsPiece true ((Cut.directive s).cons '#') := by
  rcases Cut.directive_cases s with ⟨inside, r, body, cut⟩ | ⟨continued, cut⟩
  · rw [cut]
    exact .directive rfl body
  · rw [cut]
    exact .openEnd (.directive continued)

end IsPiece

namespace Token

theorem isPiece_of_gap? {fresh : Bool} {s : List Char} {cut : Cut}
    (found : gap? fresh s = some cut) : IsPiece fresh cut ∧ cut.piece ++ cut.rest = s := by
  unfold gap? at found
  split at found
  · cases found
  · rename_i c r
    split at found
    · rename_i space
      cases found
      exact ⟨.blank space, rfl⟩
    · split at found
      · rename_i t _
        cases found
        exact ⟨.of_line fresh t, congrArg ('/' :: '/' :: ·) (Cut.span_whole _ t)⟩
      · rename_i t _
        cases found
        exact ⟨.of_blockComment fresh t, congrArg ('/' :: '*' :: ·) (Cut.blockComment_whole t)⟩
      · split at found
        · rename_i starts
          cases found
          rw [starts]
          exact ⟨.of_directive r, congrArg ('#' :: ·) (Cut.directive_whole r)⟩
        · cases found
      · cases found

/-- What the scanner finds behind a gap. -/
inductive Stops (p : Place) : List Char → Prop where
  | openEnd {last : List Char} (isEnd : IsOpenEnd p.fresh last)
      (read : scanFrom p last = scanFrom (p.after last) []) : Stops p last
  | token {c : Char} {r : List Char} (noGap : gap? p.fresh (c :: r) = none) : Stops p (c :: r)

theorem Stops.not_feed {p : Place} {r : List Char} : ¬ Stops p ('\n' :: r) := by
  intro stops
  cases stops with
  | openEnd isEnd =>
    generalize p.fresh = fresh at isEnd
    cases isEnd
  | token noGap => cases noGap

/-- A gap that starts before a line feed takes the line feed. -/
theorem exists_feed {fresh : Bool} {p : Place} {gap rest r : List Char} (isGap : IsGap fresh gap)
    (stops : Stops p rest) (whole : '\n' :: r = gap ++ rest) :
    ∃ t, gap = '\n' :: t ∧ IsGap true t := by
  cases isGap with
  | nil =>
    rw [List.nil_append] at whole
    rw [← whole] at stops
    exact absurd stops Stops.not_feed
  | blank space later =>
    obtain ⟨rfl, -⟩ := List.cons.inj whole
    exact ⟨_, rfl, later⟩
  | lineComment | blockComment | directive => cases whole

/-- The scanner takes a gap as far as it goes. -/
theorem exists_gap (p : Place) (s : List Char) :
    ∃ gap rest, s = gap ++ rest ∧ IsGap p.fresh gap ∧ Stops (p.after gap) rest := by
  fun_induction scanFrom p s with
  | case1 p s cut found ih =>
    obtain ⟨piece, whole⟩ := isPiece_of_gap? found
    obtain ⟨gap, rest, split, isGap, stops⟩ := ih
    cases piece with
    | @blank c r space =>
      have next : (p.after [c]).fresh = (c == '\n' || p.fresh) := by
        rw [Place.fresh_after_singleton, isBlank_of_isSpace space, Bool.and_true]
      rw [next] at isGap
      refine ⟨c :: gap, rest, ?_, .blank space isGap, stops⟩
      rw [← whole, split]
      rfl
    | @lineComment inside r line =>
      -- the line feed behind the comment is the first blank of the gap that follows
      obtain ⟨t, rfl, later⟩ := exists_feed isGap stops split
      refine ⟨_, rest, ?_, .lineComment line later, ?_⟩
      · rw [← whole, split]
        simp
      · rwa [← Place.after_append] at stops
    | @blockComment inside r unclosed =>
      have stale := Place.fresh_close p ('/' :: '*' :: inside)
      simp only [List.cons_append] at stale
      rw [stale] at isGap
      refine ⟨_, rest, ?_, .blockComment unclosed isGap, ?_⟩
      · rw [← whole, split]
        simp
      · rw [← Place.after_append] at stops
        simpa using stops
    | @directive inside r starts body =>
      obtain ⟨t, rfl, later⟩ := exists_feed isGap stops split
      rw [starts]
      refine ⟨_, rest, ?_, .directive body later, ?_⟩
      · rw [← whole, split]
        simp
      · rwa [← Place.after_append] at stops
    | openEnd isEnd =>
      simp only [List.append_nil] at whole
      subst whole
      exact ⟨[], _, rfl, .nil _, .openEnd isEnd (scanFrom_cut found)⟩
  | case2 p noGap => exact ⟨[], [], rfl, .nil _, .openEnd (.nil _) rfl⟩
  | case3 p c r noGap => exact ⟨[], c :: r, rfl, .nil _, .token noGap⟩

end Token

end ScriptGlue
