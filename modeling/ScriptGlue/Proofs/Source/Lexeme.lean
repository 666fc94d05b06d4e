import ScriptGlue.Proofs.Source.Word

/-!
# Tokens on their own

The scanner cuts a text in two and loses nothing of it. The piece that it takes for a token is read
as the same token where nothing follows it, so a token depends on no more of the source than it
covers.
-/
namespace ScriptGlue

open Token (Kind)

namespace Cut

theorem span_whole (p : Char → Bool) (s : List Char) : (span p s).piece ++ (span p s).rest = s := by
  induction s with
  | nil => rfl
  | cons c r ih =>
    rw [span]
    split
    · exact congrArg (c :: ·) ih
    · rfl

theorem of_mem_span {p : Char → Bool} {s : List Char} {c : Char} (member : c ∈ (span p s).piece) :
    p c = true := by
  induction s with
  | nil => cases member
  | cons d r ih =>
    rw [span] at member
    split at member
    · rename_i first
      rcases List.mem_cons.mp member with rfl | member
      · exact first
      · exact ih member
    · cases member

/-- A run of characters is taken whole where nothing follows it. -/
theorem span_alone (p : Char → Bool) (s : List Char) :
    span p (span p s).piece = ⟨(span p s).piece, []⟩ := by
  have alone := span_stop (s := []) (fun c member => of_mem_span (p := p) (s := s) member) rfl
  rwa [List.append_nil] at alone

theorem span_rest_stops (p : Char → Bool) (s : List Char) :
    (span p s).rest.head?.any p = false := by
  induction s with
  | nil => rfl
  | cons c r ih =>
    rw [span]
    split
    · exact ih
    · rename_i stop
      simpa using stop

/-- A run ends where it does if more text follows that would not go on with it. -/
theorem span_append {p : Char → Bool} (s : List Char) {t : List Char}
    (stop : t.head?.any p = false) : span p (s ++ t) = ⟨(span p s).piece, (span p s).rest ++ t⟩ := by
  have stops : ((span p s).rest ++ t).head?.any p = false := by
    cases left : (span p s).rest with
    | nil => exact stop
    | cons c r =>
      have here := span_rest_stops p s
      rwa [left] at here
  rw [← span_stop (fun c member => of_mem_span member) stops, ← List.append_assoc, span_whole]

end Cut

/-- A literal that the end of the text cuts off right after a backslash. -/
def IsOpenEscape (s : List Char) : Prop :=
  ∃ inside, isQuotable inside = true ∧ s = '"' :: (inside ++ ['\\'])

namespace Token

/-! ### Literals -/

theorem literalBody_whole (s : List Char) :
    (literalBody s).cut.piece ++ (literalBody s).cut.rest = s := by
  fun_induction literalBody s with
  | case1 | case2 | case3 | case5 => rfl
  | case4 c r ih => exact congrArg ('\\' :: c :: ·) ih
  | case6 c r _ _ _ _ ih => exact congrArg (c :: ·) ih

/-- A literal is read from its own piece as from the whole text. -/
theorem literalBody_alone (s : List Char) :
    literalBody (literalBody s).cut.piece =
      { literalBody s with cut := ⟨(literalBody s).cut.piece, []⟩ } := by
  fun_induction literalBody s with
  | case1 | case2 | case3 | case5 => rfl
  | case4 c r ih =>
    simp only [LiteralBody.push, List.cons_append, List.nil_append]
    rw [literalBody, ih]
    rfl
  | case6 c r noQuote noLast noPair noFeed ih =>
    -- the forms with a backslash come first, so there is none here, whatever the piece ends with
    have noBackslash : c ≠ '\\' := by
      rintro rfl
      cases r with
      | nil => exact noLast rfl rfl
      | cons d t => exact noPair d t rfl rfl
    simp only [LiteralBody.push, List.cons_append, List.nil_append]
    rw [literalBody, ih]
    · rfl
    · exact noQuote
    · exact fun same => absurd same noBackslash
    · exact fun _ _ same => absurd same noBackslash
    · exact noFeed

theorem literalBody_dangling {inside : List Char} (quotable : isQuotable inside = true) :
    literalBody (inside ++ ['\\']) = ⟨unquoted inside, ⟨inside ++ ['\\'], []⟩, true⟩ := by
  fun_induction isQuotable inside with
  | case1 => rfl
  | case2 c r ih =>
    rw [List.cons_append, List.cons_append, literalBody, ih quotable]
    simp [LiteralBody.push, unquoted]
  | case3 c r noPair ih =>
    simp only [Bool.and_eq_true, bne_iff_ne, ne_eq] at quotable
    obtain ⟨⟨⟨noBackslash, noQuote⟩, noFeed⟩, rest⟩ := quotable
    rw [List.cons_append, literalBody, ih rest]
    · simp [LiteralBody.push, unquoted]
    all_goals simp_all

theorem exists_of_dangling {s : List Char} (dangling : (literalBody s).dangling = true) :
    ∃ inside, isQuotable inside = true ∧ s = inside ++ ['\\'] := by
  fun_induction literalBody s with
  | case1 | case2 | case5 => cases dangling
  | case3 => exact ⟨[], rfl, rfl⟩
  | case4 c r ih =>
    obtain ⟨inside, quotable, rfl⟩ := ih dangling
    exact ⟨'\\' :: c :: inside, quotable, rfl⟩
  | case6 c r noQuote noLast noPair noFeed ih =>
    obtain ⟨inside, quotable, rfl⟩ := ih dangling
    have noBackslash : c ≠ '\\' := by
      rintro rfl
      cases inside with
      | nil => exact noPair _ _ rfl rfl
      | cons d t => exact noPair _ _ rfl rfl
    refine ⟨c :: inside, ?_, rfl⟩
    rw [isQuotable]
    · simp_all
    · exact fun _ _ same => absurd same noBackslash

/-! ### Lexemes -/

theorem markKind_ne_stop (c : Char) : markKind c ≠ .stop := by
  unfold markKind
  split <;> exact fun same => Kind.noConfusion same

theorem eq_of_markKind_eq_other {c d : Char} (other : markKind c = .other d) : c = d := by
  unfold markKind at other
  split at other <;> cases other
  rfl

theorem markKind_injective {c d : Char} (same : markKind c = markKind d) : c = d := by
  unfold markKind at same
  grind

theorem eq_star_of_isTypePart {c : Char} (part : (markKind c).isTypePart = true) : c = '*' := by
  unfold markKind at part
  split at part
  case h_1 => rfl
  all_goals cases part

/-- The forms of a lexeme that starts with `c` where `r` follows. -/
inductive IsLexeme (c : Char) (r : List Char) : Lexeme → Prop where
  | ident {cut : Cut} (run : cut = (Cut.span Text.isIdentRest r).cons c) :
      IsLexeme c r ⟨.ident (String.ofList cut.piece), cut, cut.piece.length⟩
  | number {cut : Cut} (run : cut = (Cut.span isNumberRest r).cons c) :
      IsLexeme c r ⟨.number (String.ofList cut.piece), cut, cut.piece.length⟩
  | literal {cut : Cut} (quote : c = '"') (body : cut = (literalBody r).cut.cons c) :
      IsLexeme c r ⟨.literal (String.ofList (literalBody r).value), cut,
        cut.piece.length + if (literalBody r).dangling then 1 else 0⟩
  | ellipsis {t : List Char} (dot : c = '.') (dots : r = '.' :: '.' :: t) :
      IsLexeme c r ⟨.ellipsis, ⟨['.', '.', '.'], t⟩, 3⟩
  | mark : IsLexeme c r ⟨markKind c, ⟨[c], r⟩, 1⟩

theorem isLexeme_lexeme (c : Char) (r : List Char) : IsLexeme c r (lexeme c r) := by
  unfold lexeme
  split
  · exact .ident rfl
  · split
    · exact .number rfl
    · split
      · rename_i quote
        exact .literal quote rfl
      · split
        · exact .ellipsis rfl rfl
        · exact .mark

namespace IsLexeme

variable {c : Char} {r : List Char} {l : Lexeme}

theorem whole (form : IsLexeme c r l) : l.cut.piece ++ l.cut.rest = c :: r := by
  cases form with
  | ident run | number run =>
    rw [run]
    exact congrArg (c :: ·) (Cut.span_whole _ r)
  | literal quote body =>
    rw [body]
    exact congrArg (c :: ·) (literalBody_whole r)
  | ellipsis dot dots =>
    rw [dot, dots]
    rfl
  | mark => rfl

theorem kind_ne_stop (form : IsLexeme c r l) : l.kind ≠ .stop := by
  cases form with
  | mark => exact markKind_ne_stop c
  | ident | number | literal | ellipsis => exact fun same => Kind.noConfusion same

/-- A lexeme that the source does not cut off after a backslash is as wide as its text. -/
theorem width_eq (form : IsLexeme c r l) (whole : ¬ IsOpenEscape (c :: r)) :
    l.width = l.cut.piece.length := by
  cases form with
  | literal quote body =>
    have closed : ¬ (literalBody r).dangling = true := by
      intro dangling
      obtain ⟨inside, quotable, rfl⟩ := exists_of_dangling dangling
      exact whole ⟨inside, quotable, by rw [quote]⟩
    simp only [if_neg closed, Nat.add_zero]
  | ident | number | ellipsis | mark => rfl

theorem eq_hash (form : IsLexeme c r l) (hash : l.kind = .other '#') : c = '#' := by
  cases form with
  | mark => exact eq_of_markKind_eq_other hash
  | ident | number | literal | ellipsis => cases hash

end IsLexeme

/-- A lexeme that the source cuts off after a backslash is one wider than its text. -/
theorem lexeme_of_isOpenEscape {c : Char} {r : List Char} (cutOff : IsOpenEscape (c :: r)) :
    ∃ value, lexeme c r = ⟨.literal value, ⟨c :: r, []⟩, (c :: r).length + 1⟩ := by
  obtain ⟨inside, quotable, whole⟩ := cutOff
  obtain ⟨rfl, rfl⟩ := List.cons.inj whole
  have noStart : ¬ Text.isIdentStart '"' = true := by decide
  refine ⟨String.ofList (unquoted inside), ?_⟩
  unfold lexeme
  rw [if_neg noStart, if_neg (by decide), if_pos rfl, literalBody_dangling quotable]
  rfl

/-- Where no ellipsis starts, a mark is a token on its own. -/
theorem lexeme_mark {c : Char} {r : List Char} (noStart : Text.isIdentStart c = false)
    (noDigit : c.isDigit = false) (noQuote : c ≠ '"')
    (noDots : c = '.' → ∀ t, r ≠ '.' :: '.' :: t) : lexeme c r = ⟨markKind c, ⟨[c], r⟩, 1⟩ := by
  unfold lexeme
  rw [if_neg (by simp [noStart]), if_neg (by simp [noDigit]), if_neg noQuote]
  split
  · exact absurd rfl (noDots rfl _)
  · rfl

/-- A character that starts nothing longer than itself is a token on its own. -/
theorem lexeme_single {c : Char} (noStart : Text.isIdentStart c = false)
    (noDigit : c.isDigit = false) (noQuote : c ≠ '"') (noDot : c ≠ '.') (r : List Char) :
    lexeme c r = ⟨markKind c, ⟨[c], r⟩, 1⟩ :=
  lexeme_mark noStart noDigit noQuote fun dot => absurd dot noDot

theorem kind_lexeme_eq_hash_iff {c : Char} {r : List Char} :
    (lexeme c r).kind = .other '#' ↔ c = '#' := by
  refine ⟨(isLexeme_lexeme c r).eq_hash, ?_⟩
  rintro rfl
  rw [lexeme_single (by decide) (by decide) (by decide) (by decide)]
  rfl

/-- A lexeme is read again from its piece alone. -/
theorem lexeme_alone (c : Char) (r : List Char) :
    ∃ q, (lexeme c r).cut.piece = c :: q ∧
      lexeme c q = { lexeme c r with cut := ⟨c :: q, []⟩ } := by
  unfold lexeme
  by_cases start : Text.isIdentStart c = true
  · simp only [if_pos start]
    exact ⟨_, rfl, by rw [Cut.span_alone]; rfl⟩
  by_cases digit : c.isDigit = true
  · simp only [if_neg start, if_pos digit]
    exact ⟨_, rfl, by rw [Cut.span_alone]; rfl⟩
  by_cases quote : c = '"'
  · simp only [if_neg start, if_neg digit, if_pos quote]
    exact ⟨_, rfl, by rw [literalBody_alone]; rfl⟩
  simp only [if_neg start, if_neg digit, if_neg quote]
  split
  · exact ⟨_, rfl, rfl⟩
  · refine ⟨[], rfl, ?_⟩
    split
    · rename_i dots _
      cases dots
    · rfl

/-- Where a token starts, its text on its own starts no gap, the mark of directives apart. -/
theorem gap?_lexeme {fresh : Bool} {c : Char} {r : List Char} (noGap : gap? fresh (c :: r) = none)
    (noHash : c ≠ '#') (later : Bool) : gap? later (lexeme c r).cut.piece = none := by
  have noSpace : ¬ isSpace c = true := by
    intro space
    unfold gap? at noGap
    simp only [if_pos space] at noGap
    cases noGap
  by_cases slash : c = '/'
  · rw [slash, lexeme_single (by decide) (by decide) (by decide) (by decide)]
    rfl
  · obtain ⟨q, piece, -⟩ := lexeme_alone c r
    rw [piece]
    unfold gap?
    simp only [if_neg noSpace]
    split
    · exact absurd rfl slash
    · exact absurd rfl slash
    · exact absurd rfl noHash
    · rfl

/-- A change of texts that touches nothing a token in front of them could take. -/
structure Spares (change : List Char → List Char) : Prop where
  ident : ∀ r, Cut.span Text.isIdentRest (change r) =
    ⟨(Cut.span Text.isIdentRest r).piece, change (Cut.span Text.isIdentRest r).rest⟩
  number : ∀ r, Cut.span isNumberRest (change r) =
    ⟨(Cut.span isNumberRest r).piece, change (Cut.span isNumberRest r).rest⟩
  dots : ∀ t, change ('.' :: '.' :: t) = '.' :: '.' :: change t
  eq_dots : ∀ {r t}, change r = '.' :: '.' :: t → ∃ u, r = '.' :: '.' :: u

/-- A token that is no literal is read in front of a changed text as in front of the text. -/
theorem Spares.lexeme_eq {change : List Char → List Char} (spares : Spares change) {c : Char}
    (noQuote : c ≠ '"') (r : List Char) : lexeme c (change r) =
      { lexeme c r with cut := ⟨(lexeme c r).cut.piece, change (lexeme c r).cut.rest⟩ } := by
  by_cases start : Text.isIdentStart c = true
  · unfold lexeme
    rw [if_pos start, if_pos start, spares.ident]
    rfl
  by_cases digit : c.isDigit = true
  · unfold lexeme
    rw [if_neg start, if_pos digit, if_neg start, if_pos digit, spares.number]
    rfl
  by_cases dots : c = '.' ∧ ∃ t, r = '.' :: '.' :: t
  · obtain ⟨rfl, t, rfl⟩ := dots
    rw [spares.dots]
    rfl
  · have noStart : Text.isIdentStart c = false := by simpa using start
    have noDigit : c.isDigit = false := by simpa using digit
    have noDots : c = '.' → ∀ t, r ≠ '.' :: '.' :: t := fun dot t same => dots ⟨dot, t, same⟩
    have noDots' : c = '.' → ∀ t, change r ≠ '.' :: '.' :: t := fun dot t same =>
      dots ⟨dot, spares.eq_dots same⟩
    rw [lexeme_mark noStart noDigit noQuote noDots, lexeme_mark noStart noDigit noQuote noDots']

end Token

end ScriptGlue
