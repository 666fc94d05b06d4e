import ScriptGlue.Proofs.Source.Coverage

/-!
# Tokens in their order

The tokens of a source stand one behind the other, and each is the lexeme that starts where its span
does. So the source can be cut at any token, and the text from the first token of a type to its last
one has no blank at its ends.
-/
namespace ScriptGlue

open Token (Kind)

namespace Token

variable {source : List Char} {firstLine : Nat} {t : Token}

theorem offset_le_start {p : Place} {s : List Char} (member : t ∈ (scanFrom p s).tokens) :
    p.offset ≤ t.span.start := by
  fun_induction scanFrom p s with
  | case1 p s cut found ih =>
    have rest := ih member
    rw [Place.offset_after] at rest
    omega
  | case2 => cases member
  | case3 p c r noGap l stop ih =>
    rcases List.mem_cons.mp member with rfl | member
    · exact Nat.le_refl _
    · have rest := ih member
      simp only [stop] at rest
      omega

/-- A token ends before the next one starts. -/
theorem ordered_scanFrom (p : Place) (s : List Char) :
    (scanFrom p s).tokens.Pairwise fun a b => a.span.stop ≤ b.span.start := by
  fun_induction scanFrom p s with
  | case1 p s cut found ih => exact ih
  | case2 => exact .nil
  | case3 p c r noGap l stop ih =>
    exact .cons (fun b member => offset_le_start (p := { p.after l.cut.piece with offset := stop })
      member) ih

theorem exists_lexeme_scanFrom {p : Place} {s : List Char} (here : p.Reaches source firstLine s)
    (member : t ∈ (scanFrom p s).tokens) : ∃ c r, source.drop t.span.start = c :: r ∧
      t.kind = (lexeme c r).kind ∧ t.span.stop = t.span.start + (lexeme c r).width := by
  fun_induction scanFrom p s with
  | case1 p s cut found ih =>
    rw [← (isPiece_of_gap? found).2] at here
    exact ih here.after member
  | case2 => cases member
  | case3 p c r noGap l stop ih =>
    rcases List.mem_cons.mp member with rfl | member
    · exact ⟨c, r, here.rest_eq, rfl, rfl⟩
    · rw [← (isLexeme_lexeme c r).whole] at here
      exact ih (here.move (spans_lexeme c r)) member

/-- A token is the lexeme that starts where its span does. -/
theorem exists_lexeme (member : t ∈ (scan source firstLine).tokens) :
    ∃ c r, source.drop t.span.start = c :: r ∧ t.kind = (lexeme c r).kind ∧
      t.span.stop = t.span.start + (lexeme c r).width :=
  exists_lexeme_scanFrom (Place.Reaches.first source firstLine) member

/-- Only the mark itself is told as a brace or a comma. -/
theorem IsLexeme.of_mark {c mark : Char} {r : List Char} {l : Lexeme} (form : IsLexeme c r l)
    (isMark : mark = '{' ∨ mark = '}' ∨ mark = ',') (kind : l.kind = markKind mark) :
    c = mark ∧ l.width = 1 := by
  cases form with
  | ident | number | literal | ellipsis => rcases isMark with rfl | rfl | rfl <;> cases kind
  | mark => exact ⟨markKind_injective kind, rfl⟩

/-- A source can be cut at a brace or a comma. -/
theorem cut_at_mark (member : t ∈ (scan source firstLine).tokens) {mark : Char}
    (isMark : mark = '{' ∨ mark = '}' ∨ mark = ',') (kind : t.kind = markKind mark) :
    source = source.take t.span.start ++ mark :: source.drop t.span.stop ∧
      t.span.stop = t.span.start + 1 ∧ t.span.start < source.length := by
  obtain ⟨c, r, starts, same, stop⟩ := exists_lexeme member
  rw [same] at kind
  obtain ⟨rfl, width⟩ := (isLexeme_lexeme c r).of_mark isMark kind
  rw [width] at stop
  refine ⟨?_, stop, ?_⟩
  · rw [stop, ← List.drop_drop, starts, List.drop_succ_cons, List.drop_zero, ← starts,
      List.take_append_drop]
  · have length := congrArg List.length starts
    simp only [List.length_drop, List.length_cons] at length
    omega

end Token

/-! ### Texts of types -/

/-- A span holds a piece of the source, and `rest` follows. -/
structure Span.Holds (source : List Char) (s : Span) (piece rest : List Char) : Prop where
  drop_eq : source.drop s.start = piece ++ rest
  stop_eq : s.stop = s.start + piece.length

namespace Span.Holds

variable {source piece rest piece' rest' : List Char} {a b : Span}

theorem slice_eq (holds : a.Holds source piece rest) : a.slice source = piece := by
  have ordered : a.start ≤ a.stop := by rw [holds.stop_eq]; exact Nat.le_add_right _ _
  rw [Span.slice_of_le ordered, holds.drop_eq, holds.stop_eq, Nat.add_sub_cancel_left,
    List.take_left]

/-- The text from one span to a later one starts as the one does and ends as the other does. -/
theorem exists_cover (first : a.Holds source piece rest) (last : b.Holds source piece' rest')
    (some : piece ≠ []) (some' : piece' ≠ []) (ordered : a.start ≤ b.start) (line : Nat) :
    ∃ whole, Span.Holds source ⟨a.start, b.stop, line⟩ whole rest' ∧
      whole.head? = piece.head? ∧ whole.getLast? = piece'.getLast? := by
  have inside : b.start < source.length := by
    have reach := congrArg List.length last.drop_eq
    have width := List.length_pos_iff.mpr some'
    rw [List.length_drop, List.length_append] at reach
    omega
  let between := (source.drop a.start).take (b.start - a.start)
  have width : between.length = b.start - a.start := by
    rw [List.length_take, List.length_drop]
    omega
  have whole : source.drop a.start = (between ++ piece') ++ rest' := by
    have parts := List.take_append_drop (b.start - a.start) (source.drop a.start)
    rw [List.drop_drop, Nat.add_sub_cancel' ordered, last.drop_eq] at parts
    rw [List.append_assoc, parts]
  have filled : between ++ piece' ≠ [] := List.append_ne_nil_of_right_ne_nil _ some'
  refine ⟨between ++ piece', ⟨whole, ?_⟩, ?_, List.getLast?_append_of_ne_nil _ some'⟩
  · rw [List.length_append, width, last.stop_eq]
    simp only
    omega
  · rw [← List.head?_append_of_ne_nil _ filled, ← whole, first.drop_eq,
      List.head?_append_of_ne_nil _ some]

end Span.Holds

namespace Token

variable {source : List Char} {firstLine : Nat} {t : Token}

/-- A lexeme that is no literal has no blanks, and it is as wide as its text. -/
theorem IsLexeme.solid {c : Char} {r : List Char} {l : Lexeme} (form : IsLexeme c r l)
    (noQuote : c ≠ '"') (solid : Text.isBlank c = false) :
    (∀ d ∈ l.cut.piece, Text.isBlank d = false) ∧ l.width = l.cut.piece.length := by
  cases form with
  | ident run =>
    refine ⟨fun d member => ?_, rfl⟩
    rw [run] at member
    rcases List.mem_cons.mp member with rfl | member
    · exact solid
    · exact Text.isBlank_of_isIdentRest (Cut.of_mem_span member)
  | number run =>
    refine ⟨fun d member => ?_, rfl⟩
    rw [run] at member
    rcases List.mem_cons.mp member with rfl | member
    · exact solid
    · exact isBlank_of_isNumberRest (Cut.of_mem_span member)
  | literal quote body => exact absurd quote noQuote
  | ellipsis dot dots => exact ⟨by simp; decide, rfl⟩
  | mark => exact ⟨by simpa using solid, rfl⟩

/-- Identifiers and stars are no literals and start with no blank. -/
theorem solid_lexeme {c : Char} {r : List Char} (part : (lexeme c r).kind.isTypePart = true) :
    (∀ d ∈ (lexeme c r).cut.piece, Text.isBlank d = false) ∧
      (lexeme c r).width = (lexeme c r).cut.piece.length := by
  have first : c ≠ '"' ∧ Text.isBlank c = false := by
    unfold lexeme at part
    by_cases start : Text.isIdentStart c = true
    · refine ⟨?_, Text.isBlank_of_isIdentRest (Text.isIdentRest_of_isIdentStart start)⟩
      rintro rfl
      exact absurd start (by decide)
    · rw [if_neg start] at part
      split at part
      · cases part
      split at part
      · cases part
      split at part
      · cases part
      · rw [eq_star_of_isTypePart part]
        decide
  exact (isLexeme_lexeme c r).solid first.1 first.2

/-- A token of a type is a piece of the source without blanks. -/
theorem exists_solid (member : t ∈ (scan source firstLine).tokens)
    (part : t.kind.isTypePart = true) : ∃ piece rest, t.span.Holds source piece rest ∧
      piece ≠ [] ∧ ∀ d ∈ piece, Text.isBlank d = false := by
  obtain ⟨c, r, starts, same, stop⟩ := exists_lexeme member
  rw [same] at part
  obtain ⟨solid, width⟩ := solid_lexeme part
  obtain ⟨q, piece, -⟩ := lexeme_alone c r
  refine ⟨(lexeme c r).cut.piece, (lexeme c r).cut.rest, ⟨?_, ?_⟩, by simp [piece], solid⟩
  · rw [starts, (isLexeme_lexeme c r).whole]
  · rw [stop, width]

/-- The text from one token of a type to another has no blank at its ends. -/
theorem trimChars_slice {first last : Token} (isFirst : first ∈ (scan source firstLine).tokens)
    (isLast : last ∈ (scan source firstLine).tokens) (partFirst : first.kind.isTypePart = true)
    (partLast : last.kind.isTypePart = true) (ordered : first.span.start ≤ last.span.start)
    (line : Nat) : Text.trimChars (Span.slice ⟨first.span.start, last.span.stop, line⟩ source) =
      Span.slice ⟨first.span.start, last.span.stop, line⟩ source := by
  obtain ⟨a, restA, holdsA, someA, solidA⟩ := exists_solid isFirst partFirst
  obtain ⟨b, restB, holdsB, someB, solidB⟩ := exists_solid isLast partLast
  obtain ⟨whole, holds, head, final⟩ := holdsA.exists_cover holdsB someA someB ordered line
  have tight : Text.IsTight whole :=
    ⟨fun c member => solidA c (List.mem_of_mem_head? (head ▸ member)),
      fun c member => solidB c (List.mem_of_getLast? (final ▸ member))⟩
  rw [holds.slice_eq, tight.trimChars_eq]

end Token

end ScriptGlue
