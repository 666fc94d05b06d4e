import ScriptGlue.Proofs.Source.Pieces

/-!
# Comments

Comments part tokens. A text that loses its comments keeps its tokens as long as none of them goes
on into what follows the comments behind it; the line feeds of comments stay, so lines keep their
numbers.
-/
namespace ScriptGlue

open Token (Kind)

/-- What a character of a text belongs to. -/
inductive Region where
  | code
  | line
  | block
  deriving DecidableEq, Repr

namespace Region

/-- What is left of a text that starts in a region when comments go. Line feeds stay. -/
def kept : Region → List Char → List Char
  | _, [] => []
  | code, '/' :: '*' :: r => kept block r
  | code, '/' :: '/' :: r => kept line r
  | code, c :: r => c :: kept code r
  | line, '\n' :: r => '\n' :: kept code r
  | line, _ :: r => kept line r
  | block, '*' :: '/' :: r => kept code r
  | block, '\n' :: r => '\n' :: kept block r
  | block, _ :: r => kept block r

end Region

/-- A text without directives and literals. -/
def IsFlat (s : List Char) : Prop := ∀ c ∈ s, c ≠ '#' ∧ c ≠ '"'

namespace IsFlat

variable {s t : List Char}

theorem mono (flat : IsFlat s) (inside : t ⊆ s) : IsFlat t := fun c member => flat c (inside member)

theorem tail {c : Char} (flat : IsFlat (c :: s)) : IsFlat s :=
  flat.mono (List.subset_cons_self c s)

theorem left (flat : IsFlat (s ++ t)) : IsFlat s := flat.mono (List.subset_append_left s t)

theorem right (flat : IsFlat (s ++ t)) : IsFlat t := flat.mono (List.subset_append_right s t)

end IsFlat

namespace Token

def kinds (s : List Char) : List Kind := (scan s 1).tokens.map (·.kind)

/-! ### Tokens of a flat text -/

theorem gap?_flat {s : List Char} (flat : IsFlat s) (a b : Bool) : gap? a s = gap? b s := by
  cases s with
  | nil => rfl
  | cons c r =>
    have noHash := (flat c List.mem_cons_self).1
    unfold gap?
    by_cases space : isSpace c = true
    · simp only [if_pos space]
    · simp only [if_neg space]
      split
      · rfl
      · rfl
      · exact absurd rfl noHash
      · rfl

theorem pieces_flat {s : List Char} (flat : IsFlat s) (a b : Bool) : pieces a s = pieces b s := by
  fun_induction pieces a s generalizing b with
  | case1 a s cut found ih =>
    have found' : gap? b s = some cut := (gap?_flat flat b a).trans found
    rw [← (isPiece_of_gap? found).2] at flat
    rw [ih flat.right (Place.freshAfter b cut.piece), pieces_gap found']
  | case2 => rw [pieces_nil]
  | case3 a c r noGap l ih =>
    have noGap' : gap? b (c :: r) = none := (gap?_flat flat b a).trans noGap
    rw [← (isLexeme_lexeme c r).whole] at flat
    rw [ih flat.right (Place.freshAfter b l.cut.piece), pieces_token noGap']

theorem kinds_eq {s : List Char} (flat : IsFlat s) (fresh : Bool) :
    kinds s = (pieces fresh s).filterMap (·.kind?) := by
  rw [pieces_flat flat fresh true]
  exact kinds_scanFrom (Place.first 1) s

@[simp] theorem kinds_nil : kinds [] = [] := by
  rw [kinds_eq (fun _ member => absurd member List.not_mem_nil) true, pieces_nil]
  rfl

theorem kinds_gap {s : List Char} (flat : IsFlat s) {fresh : Bool} {cut : Cut}
    (found : gap? fresh s = some cut) : kinds s = kinds cut.rest := by
  have whole := (isPiece_of_gap? found).2
  rw [kinds_eq flat fresh, pieces_gap found]
  rw [← whole] at flat
  rw [kinds_eq flat.right (Place.freshAfter fresh cut.piece)]
  rfl

/-- Where no gap starts, a text has the kind of its first token and those of the rest. -/
theorem kinds_token {c : Char} {r : List Char} (flat : IsFlat (c :: r)) {fresh : Bool}
    (noGap : gap? fresh (c :: r) = none) :
    kinds (c :: r) = (lexeme c r).kind :: kinds (lexeme c r).cut.rest := by
  have whole := (isLexeme_lexeme c r).whole
  rw [kinds_eq flat fresh, pieces_token noGap]
  rw [← whole] at flat
  rw [kinds_eq flat.right (Place.freshAfter fresh (lexeme c r).cut.piece)]
  rfl

theorem kinds_spaces {gap s : List Char} (flat : IsFlat (gap ++ s))
    (spaces : ∀ c ∈ gap, isSpace c = true) : kinds (gap ++ s) = kinds s := by
  induction gap with
  | nil => rfl
  | cons c r ih =>
    rw [List.cons_append] at flat ⊢
    rw [kinds_gap flat (gap?_space (spaces c List.mem_cons_self) true (r ++ s))]
    exact ih flat.tail fun d member => spaces d (List.mem_cons_of_mem _ member)

end Token

/-! ### What is left of a text -/

namespace Region

@[simp] theorem kept_nil (region : Region) : kept region [] = [] := by
  cases region <;> rfl

theorem kept_openLine (r : List Char) : kept code ('/' :: '/' :: r) = kept line r := rfl

theorem kept_openBlock (r : List Char) : kept code ('/' :: '*' :: r) = kept block r := rfl

theorem kept_code_cons {c : Char} {r : List Char}
    (here : c = '/' → r.head?.any Token.opensComment = false) :
    kept code (c :: r) = c :: kept code r := by
  rw [kept]
  · rintro t rfl rfl
    exact absurd (here rfl) (by simp [Token.opensComment])
  · rintro t rfl rfl
    exact absurd (here rfl) (by simp [Token.opensComment])

theorem kept_code_append {w : List Char} (flat : '/' ∉ w) (s : List Char) :
    kept code (w ++ s) = w ++ kept code s := by
  induction w with
  | nil => rfl
  | cons c r ih =>
    rw [List.mem_cons, not_or] at flat
    rw [List.cons_append, kept_code_cons fun slash => absurd slash.symm flat.1, ih flat.2]
    rfl

theorem kept_line_cons {c : Char} (other : c ≠ '\n') (r : List Char) :
    kept line (c :: r) = kept line r := by
  rw [kept]
  exact other

theorem kept_line {a : List Char} (clean : '\n' ∉ a) (s : List Char) :
    kept line (a ++ '\n' :: s) = '\n' :: kept code s := by
  induction a with
  | nil => rfl
  | cons c r ih =>
    rw [List.mem_cons, not_or] at clean
    rw [List.cons_append, kept_line_cons (Ne.symm clean.1), ih clean.2]

theorem kept_line_last {a : List Char} (clean : '\n' ∉ a) : kept line a = [] := by
  induction a with
  | nil => rfl
  | cons c r ih =>
    rw [List.mem_cons, not_or] at clean
    rw [kept_line_cons (Ne.symm clean.1), ih clean.2]

def feeds (s : List Char) : List Char := s.filter (· == '\n')

/-- In a block comment, what is neither a line feed nor its end goes. -/
theorem kept_block_other {c : Char} {r : List Char} (noClose : c = '*' → r.head? ≠ some '/')
    (noFeed : c ≠ '\n') : kept block (c :: r) = kept block r := by
  rw [kept]
  · rintro t rfl rfl
    exact noClose rfl rfl
  · exact noFeed

theorem kept_block_cons {c : Char} {r s : List Char} (unclosed : ¬ ['*', '/'] <:+: c :: r)
    (next : s.head? ≠ some '/') : kept block (c :: (r ++ s)) = feeds [c] ++ kept block (r ++ s) := by
  by_cases feed : c = '\n'
  · rw [feed]
    rfl
  · have first : feeds [c] = [] := by simp [feeds, feed]
    rw [first, List.nil_append]
    refine kept_block_other (fun star slash => ?_) feed
    cases r with
    | nil => exact next slash
    | cons d u =>
      obtain rfl := Option.some.inj slash
      rw [star] at unclosed
      exact unclosed (List.prefix_append ['*', '/'] u).isInfix

/-- A block comment leaves its line feeds. -/
theorem kept_block {inside : List Char} (unclosed : ¬ ['*', '/'] <:+: inside) (s : List Char) :
    kept block (inside ++ '*' :: '/' :: s) = feeds inside ++ kept code s := by
  induction inside with
  | nil => rfl
  | cons c r ih =>
    have later := ih fun inner => unclosed (inner.trans (List.suffix_cons c r).isInfix)
    rw [List.cons_append, kept_block_cons unclosed (by simp), later, ← List.append_assoc]
    exact congrArg (· ++ kept code s) (List.filter_append [c] r).symm

theorem kept_block_last {inside : List Char} (unclosed : ¬ ['*', '/'] <:+: inside) :
    kept block inside = feeds inside := by
  induction inside with
  | nil => rfl
  | cons c r ih =>
    have later := ih fun inner => unclosed (inner.trans (List.suffix_cons c r).isInfix)
    have step := kept_block_cons (s := []) unclosed (by simp)
    rw [List.append_nil, later] at step
    exact step.trans (List.filter_append [c] r).symm

theorem head?_kept {s : List Char} (first : s.head?.any Token.opensComment = false) :
    (kept code s).head?.any Token.opensComment = false := by
  cases s with
  | nil => rfl
  | cons c r =>
    rw [kept_code_cons]
    · exact first
    · rintro rfl
      exact absurd first (by simp [Token.opensComment])

theorem subset_kept (region : Region) (s : List Char) : kept region s ⊆ s := by
  fun_induction kept region s with
  | case1 => exact List.nil_subset _
  | case2 r ih | case3 r ih | case7 r ih =>
    exact List.Subset.trans ih (List.subset_cons_of_subset _ (List.subset_cons_self _ r))
  | case4 c r _ _ ih | case5 r ih | case8 r ih => exact List.cons_subset_cons _ ih
  | case6 c r _ ih | case9 c r _ _ ih => exact List.Subset.trans ih (List.subset_cons_self c r)

end Region

open Region (kept feeds code line block)

namespace Token

/-- A gap leaves blanks. -/
theorem kept_gap {s : List Char} (flat : IsFlat s) {fresh : Bool} {cut : Cut}
    (found : gap? fresh s = some cut) : ∃ blanks, (∀ c ∈ blanks, isSpace c = true) ∧
      kept code s = blanks ++ kept code cut.rest := by
  have spaces (s : List Char) : ∀ c ∈ feeds s, isSpace c = true := by
    intro c member
    have feed : c = '\n' := by simpa using (List.mem_filter.mp member).2
    rw [feed]
    rfl
  obtain ⟨piece, whole⟩ := isPiece_of_gap? found
  rw [← whole] at flat ⊢
  cases piece with
  | @blank c r space =>
    refine ⟨[c], by simpa using space, ?_⟩
    rw [List.singleton_append, Region.kept_code_cons]
    · rfl
    · rintro rfl
      cases space
  | @lineComment inside r clean =>
    have feed : kept code ('\n' :: r) = '\n' :: kept code r :=
      Region.kept_code_cons fun same => absurd same (by decide)
    refine ⟨[], by simp, ?_⟩
    rw [List.cons_append, List.cons_append, Region.kept_openLine, Region.kept_line clean, feed]
    rfl
  | @blockComment inside r unclosed =>
    refine ⟨feeds inside, spaces inside, ?_⟩
    rw [List.cons_append, List.cons_append, List.append_assoc, Region.kept_openBlock]
    exact Region.kept_block unclosed r
  | directive => exact absurd rfl (flat '#' (by simp)).1
  | @openEnd last isEnd =>
    rw [List.append_nil] at flat ⊢
    cases isEnd with
    | nil => exact ⟨[], by simp, rfl⟩
    | @lineComment _ inside clean =>
      refine ⟨[], by simp, ?_⟩
      change kept code ('/' :: '/' :: inside) = kept code []
      rw [Region.kept_openLine, Region.kept_line_last clean, Region.kept_nil]
    | @blockComment _ inside unclosed =>
      refine ⟨feeds inside, spaces inside, ?_⟩
      change kept code ('/' :: '*' :: inside) = feeds inside ++ kept code []
      rw [Region.kept_openBlock, Region.kept_block_last unclosed, Region.kept_nil,
        List.append_nil]
    | directive => exact absurd rfl (flat '#' (by simp)).1

theorem slash_not_mem_piece {c : Char} {r : List Char} (noQuote : c ≠ '"') (noSlash : c ≠ '/') :
    '/' ∉ (lexeme c r).cut.piece := by
  have form := isLexeme_lexeme c r
  intro member
  generalize lexeme c r = l at form member
  cases form with
  | ident run =>
    rw [run] at member
    rcases List.mem_cons.mp member with same | inside
    · exact noSlash same.symm
    · exact absurd (Cut.of_mem_span inside) (by decide)
  | number run =>
    rw [run] at member
    rcases List.mem_cons.mp member with same | inside
    · exact noSlash same.symm
    · exact absurd (Cut.of_mem_span inside) (by decide)
  | literal quote => exact noQuote quote
  | ellipsis => simp at member
  | mark => exact noSlash (List.mem_singleton.mp member).symm

/-- A token stays. -/
theorem kept_token {c : Char} {r : List Char} (noQuote : c ≠ '"') {fresh : Bool}
    (noGap : gap? fresh (c :: r) = none) :
    kept code (c :: r) = (lexeme c r).cut.piece ++ kept code (lexeme c r).cut.rest := by
  by_cases slash : c = '/'
  · obtain ⟨-, noComment, -⟩ := gap?_eq_none_iff.mp noGap
    rw [Region.kept_code_cons noComment, slash,
      lexeme_single (by decide) (by decide) (by decide) (by decide)]
    rfl
  · have whole := (isLexeme_lexeme c r).whole
    rw [← Region.kept_code_append (slash_not_mem_piece noQuote slash), whole]

/-! ### Tokens without comments -/

/-- Whether a token with some text would go on into what follows it. -/
def goesOn : List Char → List Char → Bool
  | [], _ => false
  | c :: q, rest => (lexeme c (q ++ rest)).cut.piece != c :: q

/-- Whether no token goes on into what is left behind it when comments go. -/
def staysApart : List Piece → Bool
  | [] => true
  | x :: r => (x.isGap || !goesOn x.chars (kept code (Piece.text r))) && staysApart r

/-- What starts no word, number or literal is an ellipsis or a mark. -/
theorem lexeme_cases {c : Char} (noStart : ¬ Text.isIdentStart c = true)
    (noDigit : ¬ c.isDigit = true) (noQuote : c ≠ '"') (r : List Char) :
    (∃ t, lexeme c r = ⟨.ellipsis, ⟨['.', '.', '.'], t⟩, 3⟩) ∨
      lexeme c r = ⟨markKind c, ⟨[c], r⟩, 1⟩ := by
  unfold lexeme
  rw [if_neg noStart, if_neg noDigit, if_neg noQuote]
  split
  · exact .inl ⟨_, rfl⟩
  · exact .inr rfl

theorem markKind_ne_ellipsis (c : Char) : markKind c ≠ .ellipsis := by
  unfold markKind
  split <;> exact fun same => Kind.noConfusion same

/-- Tokens of one kind that start alike have one text, literals apart. -/
theorem piece_eq_of_kind_eq {c : Char} {r s : List Char} (noQuote : c ≠ '"')
    (same : (lexeme c r).kind = (lexeme c s).kind) :
    (lexeme c r).cut.piece = (lexeme c s).cut.piece := by
  by_cases start : Text.isIdentStart c = true
  · unfold lexeme at same ⊢
    rw [if_pos start, if_pos start] at same ⊢
    exact String.ofList_injective (Kind.ident.inj same)
  by_cases digit : c.isDigit = true
  · unfold lexeme at same ⊢
    rw [if_neg start, if_pos digit, if_neg start, if_pos digit] at same ⊢
    exact String.ofList_injective (Kind.number.inj same)
  rcases lexeme_cases start digit noQuote r with ⟨t, dots⟩ | mark <;>
    rcases lexeme_cases start digit noQuote s with ⟨u, dots'⟩ | mark'
  · rw [dots, dots']
  · rw [dots, mark'] at same
    exact absurd same.symm (markKind_ne_ellipsis c)
  · rw [mark, dots'] at same
    exact absurd same (markKind_ne_ellipsis c)
  · rw [mark, mark']

/-- The kind of a token depends on its text alone. -/
theorem kind_eq_of_piece_eq {c : Char} {r s : List Char}
    (same : (lexeme c r).cut.piece = (lexeme c s).cut.piece) :
    (lexeme c r).kind = (lexeme c s).kind := by
  obtain ⟨q, pieceR, aloneR⟩ := lexeme_alone c r
  obtain ⟨q', pieceS, aloneS⟩ := lexeme_alone c s
  rw [pieceR, pieceS] at same
  obtain rfl := (List.cons.inj same).2
  have kindR : (lexeme c q).kind = (lexeme c r).kind := by rw [aloneR]
  have kindS : (lexeme c q).kind = (lexeme c s).kind := by rw [aloneS]
  exact kindR.symm.trans kindS

/-- A text and what is left of it without comments have the same tokens exactly if none goes on. -/
theorem kinds_kept_iff {s : List Char} (flat : IsFlat s) (fresh : Bool) :
    kinds (kept code s) = kinds s ↔ staysApart (pieces fresh s) = true := by
  -- a gap leaves blanks and changes no token; a token is the same in both texts unless it goes on
  -- with what stood behind a comment
  fun_induction pieces fresh s with
  | case1 fresh s cut found ih =>
    obtain ⟨blanks, spaces, left⟩ := kept_gap flat found
    have flatKept := flat.mono (Region.subset_kept code s)
    have flatRest : IsFlat cut.rest := by
      rw [← (isPiece_of_gap? found).2] at flat
      exact flat.right
    rw [left] at flatKept ⊢
    rw [kinds_spaces flatKept spaces, kinds_gap flat found, ih flatRest]
    rfl
  | case2 => simp [kept, staysApart]
  | case3 fresh c r noGap l ih =>
    have noQuote := (flat c List.mem_cons_self).2
    have whole := (isLexeme_lexeme c r).whole
    have left := kept_token noQuote noGap
    have flatKept := flat.mono (Region.subset_kept code (c :: r))
    have flatRest : IsFlat l.cut.rest := by
      rw [← whole] at flat
      exact flat.right
    obtain ⟨q, piece, -⟩ := lexeme_alone c r
    obtain ⟨noSpace, noComment, noHash⟩ := gap?_eq_none_iff.mp noGap
    rw [left, piece, List.cons_append] at flatKept ⊢
    set u := kept code (lexeme c r).cut.rest with behind
    have noGap' : gap? fresh (c :: (q ++ u)) = none := by
      refine gap?_eq_none_iff.mpr ⟨noSpace, fun slash => ?_, noHash⟩
      rw [slash, lexeme_single (by decide) (by decide) (by decide) (by decide)] at piece behind
      obtain ⟨-, rfl⟩ := List.cons.inj piece
      rw [behind]
      exact Region.head?_kept (noComment slash)
    have split := (isLexeme_lexeme c (q ++ u)).whole
    rw [kinds_token flatKept noGap', kinds_token flat noGap, List.cons.injEq, staysApart,
      text_pieces, ← behind, goesOn]
    by_cases same : (lexeme c (q ++ u)).cut.piece = c :: q
    · have rest : (lexeme c (q ++ u)).cut.rest = u := by
        rw [same, ← List.cons_append] at split
        exact List.append_cancel_left split
      rw [rest, ih flatRest, piece]
      simp [kind_eq_of_piece_eq (same.trans piece.symm), same]
    · have other : (lexeme c (q ++ u)).kind ≠ (lexeme c r).kind := fun kind =>
        same ((piece_eq_of_kind_eq noQuote kind).trans piece)
      simp [other, same, Piece.isGap]

end Token

end ScriptGlue
