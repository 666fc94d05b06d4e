import ScriptGlue.Proofs.Source.Row

/-!
# Gaps between words

Blanks, comments and directive lines may stand between words. The scanner takes a gap piece by piece
and is left with the word after it, so it reads a row word by word whatever its gaps are.
-/
namespace ScriptGlue

open Token (Kind)

/-- The text of a directive behind its mark, up to the end of its last line: all line feeds in it
have a backslash before them. -/
def isDirectiveBody : List Char → Bool
  | [] => true
  | '\\' :: '\n' :: r => isDirectiveBody r
  | ['\\'] => false
  | '\n' :: _ => false
  | _ :: r => isDirectiveBody r

/-- What may stand between two words. A directive may only stand where nothing but blanks is before
it on its line, which holds at the start if `fresh`. -/
inductive IsGap : Bool → List Char → Prop where
  | nil (fresh : Bool) : IsGap fresh []
  | blank {fresh : Bool} {c : Char} {r : List Char} (space : Token.isSpace c = true)
      (rest : IsGap (c == '\n' || fresh) r) : IsGap fresh (c :: r)
  | lineComment {fresh : Bool} {inside r : List Char} (line : '\n' ∉ inside)
      (rest : IsGap true r) : IsGap fresh ('/' :: '/' :: (inside ++ '\n' :: r))
  | blockComment {fresh : Bool} {inside r : List Char} (unclosed : ¬ ['*', '/'] <:+: inside)
      (rest : IsGap false r) : IsGap fresh ('/' :: '*' :: (inside ++ '*' :: '/' :: r))
  | directive {inside r : List Char} (body : isDirectiveBody inside = true)
      (rest : IsGap true r) : IsGap true ('#' :: (inside ++ '\n' :: r))

/-- Blanks are a gap. -/
theorem IsGap.of_blanks {gap : List Char} (blank : ∀ c ∈ gap, Token.isSpace c = true)
    (fresh : Bool) : IsGap fresh gap := by
  induction gap generalizing fresh with
  | nil => exact .nil fresh
  | cons c r ih =>
    exact .blank (blank c List.mem_cons_self)
      (ih (fun d member => blank d (List.mem_cons_of_mem _ member)) _)

/-- A gap stays one at the start of a line. -/
theorem IsGap.at_start {fresh : Bool} {gap : List Char} (isGap : IsGap fresh gap) :
    IsGap true gap := by
  induction isGap with
  | nil => exact .nil true
  | blank space rest ih => exact .blank space (by rwa [Bool.or_true])
  | lineComment line rest => exact .lineComment line rest
  | blockComment unclosed rest => exact .blockComment unclosed rest
  | directive body rest => exact .directive body rest

theorem IsGap.of_false {gap : List Char} (isGap : IsGap false gap) (fresh : Bool) :
    IsGap fresh gap := by
  cases fresh with
  | false => exact isGap
  | true => exact isGap.at_start

/-! ### Pieces of gaps -/

namespace Place

theorem fresh_after_singleton (p : Place) (c : Char) :
    (p.after [c]).fresh = (c == '\n' || (p.fresh && Text.isBlank c)) := rfl

theorem fresh_feed (p : Place) (s : List Char) : (p.after (s ++ ['\n'])).fresh = true := by
  rw [after_append]
  rfl

/-- Behind a block comment, no directive can start. -/
theorem fresh_close (p : Place) (s : List Char) : (p.after (s ++ ['*', '/'])).fresh = false := by
  have last : ['*', '/'] = ['*'] ++ ['/'] := rfl
  have solid : Text.isBlank '/' = false := by decide
  rw [last, ← List.append_assoc, after_append, fresh_after_singleton, solid, Bool.and_false]
  rfl

end Place

theorem isBlank_of_isSpace {c : Char} (space : Token.isSpace c = true) :
    Text.isBlank c = true := by
  simp only [Token.isSpace, Bool.or_eq_true, beq_iff_eq] at space
  rcases space with ((rfl | rfl) | rfl) | rfl <;> decide

namespace Cut

/-- A block comment ends where it is first closed. -/
theorem blockComment_unclosed {inside : List Char} (unclosed : ¬ ['*', '/'] <:+: inside)
    (r : List Char) :
    blockComment (inside ++ '*' :: '/' :: r) = ⟨inside ++ ['*', '/'], r⟩ := by
  induction inside with
  | nil => rw [List.nil_append, blockComment, List.nil_append]
  | cons c t ih =>
    have later := ih fun inner => unclosed (inner.trans (List.suffix_cons c t).isInfix)
    rw [List.cons_append, blockComment, later]
    · rfl
    · rintro r' rfl next
      cases t with
      | nil => cases next
      | cons d u =>
        obtain ⟨rfl, -⟩ := List.cons.inj next
        exact unclosed (List.prefix_append ['*', '/'] u).isInfix

theorem directive_body {inside : List Char} (body : isDirectiveBody inside = true)
    (r : List Char) : directive (inside ++ '\n' :: r) = ⟨inside, '\n' :: r⟩ := by
  fun_induction isDirectiveBody inside with
  | case1 => rw [List.nil_append, directive]
  | case2 t ih =>
    rw [List.cons_append, List.cons_append, directive, ih body]
    rfl
  | case3 => cases body
  | case4 t => cases body
  | case5 c t noPair noBackslash noFeed ih =>
    rw [List.cons_append, directive, ih body]
    · rfl
    · rintro r' rfl next
      cases t with
      | nil => exact noBackslash rfl rfl
      | cons d u =>
        obtain ⟨rfl, -⟩ := List.cons.inj next
        exact noPair u rfl rfl
    · exact noFeed

end Cut

namespace Token

theorem scanFrom_cut {p : Place} {s : List Char} {cut : Cut} (found : gap? p.fresh s = some cut) :
    scanFrom p s = scanFrom (p.after cut.piece) cut.rest := by
  rw [scanFrom]
  split
  · rename_i cut' same
    rw [found] at same
    cases same
    rfl
  · rename_i other
    rw [found] at other
    cases other

/-- The scanner passes over a piece that runs up to the end of its line, and over the line feed. -/
theorem scanFrom_line {p : Place} {piece s : List Char}
    (found : gap? p.fresh (piece ++ '\n' :: s) = some ⟨piece, '\n' :: s⟩) :
    scanFrom p (piece ++ ['\n'] ++ s) = scanFrom (p.after (piece ++ ['\n'])) s := by
  have feed : gap? (p.after piece).fresh ('\n' :: s) = some ⟨['\n'], s⟩ := rfl
  rw [List.append_assoc, List.singleton_append, scanFrom_cut found, scanFrom_cut feed,
    Place.after_append]

/-- A line comment is a gap up to the line feed. -/
theorem gap?_lineComment {inside : List Char} (line : '\n' ∉ inside) (fresh : Bool)
    (s : List Char) :
    gap? fresh ('/' :: '/' :: inside ++ '\n' :: s) = some ⟨'/' :: '/' :: inside, '\n' :: s⟩ := by
  have ends : Cut.line ('/' :: inside ++ '\n' :: s) = ⟨'/' :: inside, '\n' :: s⟩ := by
    refine span_stop (fun c member => ?_) rfl
    rcases List.mem_cons.mp member with rfl | member
    · decide
    · exact decide_eq_true fun same => line (same ▸ member)
  have noSpace : ¬ isSpace '/' = true := by decide
  simp only [List.cons_append] at ends ⊢
  rw [gap?, if_neg noSpace]
  simp only [ends]
  rfl

/-- A closed block comment is a gap. -/
theorem gap?_blockComment {inside : List Char} (unclosed : ¬ ['*', '/'] <:+: inside) (fresh : Bool)
    (s : List Char) :
    gap? fresh ('/' :: '*' :: inside ++ ['*', '/'] ++ s) =
      some ⟨'/' :: '*' :: inside ++ ['*', '/'], s⟩ := by
  have noSpace : ¬ isSpace '/' = true := by decide
  simp only [List.cons_append, List.append_assoc, List.nil_append]
  rw [gap?, if_neg noSpace]
  simp only [Cut.blockComment_unclosed unclosed]
  rfl

/-- A directive is a gap up to the line feed that ends it. -/
theorem gap?_directive {inside : List Char} (body : isDirectiveBody inside = true)
    (s : List Char) :
    gap? true ('#' :: inside ++ '\n' :: s) = some ⟨'#' :: inside, '\n' :: s⟩ := by
  have noSpace : ¬ isSpace '#' = true := by decide
  rw [List.cons_append, gap?, if_neg noSpace]
  simp only [Cut.directive_body body]
  rfl

/-- The scanner passes over a gap if it passes over the first piece and then over the rest. -/
theorem scanFrom_piece {p : Place} {piece r s : List Char}
    (first : scanFrom p (piece ++ (r ++ s)) = scanFrom (p.after piece) (r ++ s))
    (rest : scanFrom (p.after piece) (r ++ s) = scanFrom ((p.after piece).after r) s) :
    scanFrom p (piece ++ r ++ s) = scanFrom (p.after (piece ++ r)) s := by
  rw [List.append_assoc, first, rest, Place.after_append]

/-- The scanner passes over a gap. -/
theorem scanFrom_gap {fresh : Bool} {gap : List Char} (isGap : IsGap fresh gap) {p : Place}
    (here : p.fresh = fresh) (s : List Char) :
    scanFrom p (gap ++ s) = scanFrom (p.after gap) s := by
  induction isGap generalizing p with
  | nil => rfl
  | @blank fresh c r space rest ih =>
    have next : (p.after [c]).fresh = (c == '\n' || fresh) := by
      rw [Place.fresh_after_singleton, isBlank_of_isSpace space, Bool.and_true, here]
    have cut : gap? p.fresh ([c] ++ (r ++ s)) = some ⟨[c], r ++ s⟩ := by simp [gap?, space]
    exact scanFrom_piece (scanFrom_cut cut) (ih next)
  | @lineComment fresh inside r line rest ih =>
    have whole : '/' :: '/' :: (inside ++ '\n' :: r) = '/' :: '/' :: inside ++ ['\n'] ++ r := by
      simp
    rw [whole]
    exact scanFrom_piece (scanFrom_line (gap?_lineComment line _ _)) (ih (Place.fresh_feed _ _))
  | @blockComment fresh inside r unclosed rest ih =>
    have whole : '/' :: '*' :: (inside ++ '*' :: '/' :: r) =
        '/' :: '*' :: inside ++ ['*', '/'] ++ r := by
      simp
    rw [whole]
    exact scanFrom_piece (scanFrom_cut (gap?_blockComment unclosed _ _))
      (ih (Place.fresh_close _ _))
  | @directive inside r body rest ih =>
    have whole : '#' :: (inside ++ '\n' :: r) = '#' :: inside ++ ['\n'] ++ r := by simp
    rw [whole]
    have cut := gap?_directive body (r ++ s)
    rw [← here] at cut
    exact scanFrom_piece (scanFrom_line cut) (ih (Place.fresh_feed _ _))

end Token

/-! ### Rows with gaps -/

namespace Row

/-- All gaps of a row may stand between words. -/
def Gaps (row : Row) : Prop := ∀ w ∈ row, IsGap false w.gap

end Row

/-- A text that may stand between words. -/
structure Gap where
  text : String
  isGap : IsGap false text.toList

namespace Gap

def empty : Gap := ⟨"", .nil false⟩

def space : Gap := ⟨" ", .of_blanks (by decide) false⟩

def feed : Gap := ⟨"\n", .of_blanks (by decide) false⟩

/-- A comment behind a space, up to the end of its line. -/
def comment (s : String) (line : '\n' ∉ s.toList) : Gap where
  text := " //" ++ s ++ "\n"
  isGap := by
    simp only [String.toList_append]
    exact .blank (c := ' ') rfl (.lineComment line (.nil true))

def directive (s : String) (body : isDirectiveBody s.toList = true) : Gap where
  text := "\n#" ++ s ++ "\n"
  isGap := by
    simp only [String.toList_append]
    exact .blank (c := '\n') rfl (.directive body (.nil true))

/-- Words with gaps before them. -/
def row (gaps : List Gap) (words : List Word) : Row := Row.ofGaps (gaps.map (·.text)) words

theorem gaps_row (gaps : List Gap) (words : List Word) : (row gaps words).Gaps := by
  intro w member
  obtain ⟨i, bound, rfl⟩ := List.getElem_of_mem member
  simp only [row, Row.ofGaps, List.getElem_zipWith, List.getElem_map]
  exact Gap.isGap _

end Gap

/-- The scanner reads a row word by word, whatever its gaps are. -/
theorem Token.scanFrom_gaps {row : Row} {rest : List Char} (gaps : row.Gaps)
    (apart : row.apart rest = true) (words : ∀ w ∈ row, w.word.isHash = false) (p : Place) :
    scanFrom p (row.chars ++ rest) =
      (scanFrom (p.after row.chars) rest).pushAll (row.tokensFrom p) := by
  induction row generalizing p with
  | nil => rfl
  | cons w r ih =>
    simp only [Row.apart, Bool.and_eq_true, Bool.not_eq_true'] at apart
    have later := ih (fun v member => gaps v (List.mem_cons_of_mem _ member)) apart.2
      (fun v member => words v (List.mem_cons_of_mem _ member)) ((p.after w.gap).after w.word.chars)
    have isGap : IsGap p.fresh w.gap := (gaps w List.mem_cons_self).of_false p.fresh
    rw [Row.chars_cons, SpacedWord.chars, List.append_assoc, List.append_assoc,
      scanFrom_gap isGap rfl, scanFrom_word apart.1 _ fun _ => words w List.mem_cons_self, later,
      Place.after_append, Place.after_append]
    rfl

/-- Words with gaps between them lex on their own: their tokens are the same when the source goes
on, as long as the last of them does not fuse with what follows. -/
theorem Token.tokens_scan_append {row : Row} {rest : List Char} (gaps : row.Gaps)
    (apart : row.apart rest = true) (words : ∀ w ∈ row, w.word.isHash = false) (line : Nat) :
    (scan (row.chars ++ rest) line).tokens = (scan row.chars line).tokens ++
      (scanFrom ((Place.first line).after row.chars) rest).tokens := by
  have alone := scanFrom_gaps gaps (Row.apart_alone apart) words (Place.first line)
  rw [List.append_nil] at alone
  rw [scan, scan, scanFrom_gaps gaps apart words, alone]
  simp only [Stream.pushAll, tokens_scanFrom_nil, List.append_nil]

/-! ### Words in a source -/

/-- A source that spells words in order, with gaps between them. The text before them is scanned on
its own, and its tokens do not have the kinds `head` in a row. -/
structure Printed (head : List Kind) (words : List Word) (source : String) where
  before : List Char
  row : Row
  after : List Char
  whole : source.toList = before ++ (row.chars ++ after)
  spelled : row.words = words
  gaps : row.Gaps
  apart : row.apart after = true
  alone : (Token.scan (before ++ (row.chars ++ after)) 1).tokens =
    (Token.scan before 1).tokens ++
      (Token.scanFrom ((Place.first 1).after before) (row.chars ++ after)).tokens
  first : ¬ head <:+: (Token.scan before 1).tokens.map (·.kind)

namespace Printed

/-- The tokens of such a source are those of the text before, one for each word, and others. -/
theorem tokens_eq {head : List Kind} {words : List Word} {source : String}
    (printed : Printed head words source) (plain : ∀ w ∈ words, w.isHash = false) :
    ∃ ts rest, (Token.scan source.toList 1).tokens =
        (Token.scan printed.before 1).tokens ++ (ts ++ rest) ∧
      ts.map (·.kind) = words.map (·.kind) := by
  have noHash : ∀ w ∈ printed.row, w.word.isHash = false := by
    intro w member
    apply plain
    rw [← printed.spelled]
    exact List.mem_map_of_mem member
  have scanned := Token.scanFrom_gaps printed.gaps printed.apart noHash
    ((Place.first 1).after printed.before)
  have split := printed.alone
  rw [← printed.whole, scanned] at split
  refine ⟨_, _, split, ?_⟩
  rw [Row.kinds_tokensFrom, Row.kinds_eq_map_words, printed.spelled]

end Printed

end ScriptGlue
