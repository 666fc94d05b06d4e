import ScriptGlue.Proofs.Declaration.OneLine
import ScriptGlue.Proofs.Declaration.Spacing
import ScriptGlue.Proofs.Source.Comments

/-!
# Types cut out of a source

Identifiers and stars that follow one another in a source are a row of words there, whatever
comments stand between them. So the text from the first of them to the last is scanned to the same
words again, and a type has all the words of the tokens that it was cut out for.
-/
namespace ScriptGlue

open Token (Kind)

/-! ### Rows of a source -/

namespace Token

/-- An identifier or a star is a word that does not go on into what follows it. -/
theorem exists_word {c : Char} {r : List Char} (part : (lexeme c r).kind.isTypePart = true) :
    ∃ w : Word, w.kind = (lexeme c r).kind ∧ w.chars = (lexeme c r).cut.piece ∧
      w.fuses (lexeme c r).cut.rest = false := by
  have form := isLexeme_lexeme c r
  cases kind : (lexeme c r).kind with
  | ident name =>
    have valid := isIdentifier_lexeme kind
    generalize lexeme c r = l at form kind
    cases form with
    | ident run =>
      obtain rfl := Kind.ident.inj kind
      subst run
      exact ⟨.ident _ valid, rfl, String.toList_ofList, Cut.span_rest_stops Text.isIdentRest r⟩
    | mark => exact absurd kind (markKind_ne_ident c name)
    | number | literal | ellipsis => cases kind
  | star =>
    generalize lexeme c r = l at form kind
    cases form with
    | mark =>
      obtain rfl := eq_star_of_isTypePart (c := c) (by rw [show markKind c = .star from kind]; rfl)
      exact ⟨.star, rfl, rfl, rfl⟩
    | ident | number | literal | ellipsis => cases kind
  | _ =>
    rw [kind] at part
    cases part

/-- Tokens of types at the front of a scan are a row of words with gaps between them. -/
theorem exists_row_scanFrom {p : Place} {s : List Char} {run behind : List Token}
    (whole : (scanFrom p s).tokens = run ++ behind)
    (types : ∀ t ∈ run, t.kind.isTypePart = true) :
    ∃ (row : Row) (rest : List Char), s = row.chars ++ rest ∧ run = row.tokensFrom p ∧
      row.apart rest = true ∧ Row.Gaps row.tail ∧
      ∀ w ∈ row.head?, IsGap p.fresh w.gap := by
  induction run generalizing p s with
  | nil => exact ⟨[], s, rfl, rfl, rfl, by simp [Row.Gaps], by simp⟩
  | cons t run ih =>
    obtain ⟨gap, text, rfl, isGap, stops⟩ := exists_gap p s
    rw [scanFrom_gap isGap rfl] at whole
    cases stops with
    | openEnd isEnd read =>
      rw [read, tokens_scanFrom_nil] at whole
      cases whole
    | @token c r noGap =>
      rw [scanFrom_cons noGap, Stream.push, List.cons_append, List.cons.injEq] at whole
      obtain ⟨rfl, later⟩ := whole
      have part := types _ List.mem_cons_self
      obtain ⟨w, kind, chars, alone⟩ := exists_word part
      rw [(solid_lexeme part).2, Place.eq_after, ← chars] at later
      obtain ⟨row, rest, split, rfl, apart, tail, head⟩ :=
        ih later fun u member => types u (List.mem_cons_of_mem _ member)
      rw [Place.fresh_after_word] at head
      rw [split] at alone
      refine ⟨⟨gap, w⟩ :: row, rest, ?_, ?_, ?_, ?_, ?_⟩
      · rw [Row.chars_cons, SpacedWord.chars, List.append_assoc, List.append_assoc, ← split, chars,
          (isLexeme_lexeme c r).whole]
      · simp only [Row.tokensFrom, kind, chars, Place.offset_after, (solid_lexeme part).2]
      · rw [Row.apart, alone, apart]
        rfl
      · intro v member
        cases row with
        | nil => cases member
        | cons u row =>
          rcases List.mem_cons.mp member with rfl | member
          · exact head _ rfl
          · exact tail v member
      · rintro v head
        cases head
        exact isGap

/-- A scan goes on from a place of the source behind each of its tokens. -/
theorem exists_place {source : List Char} {firstLine : Nat} {p : Place} {s : List Char}
    {before behind : List Token} (here : p.Reaches source firstLine s)
    (whole : (scanFrom p s).tokens = before ++ behind) :
    ∃ q t, Place.Reaches source firstLine q t ∧ (scanFrom q t).tokens = behind := by
  induction before generalizing p s with
  | nil => exact ⟨p, s, here, whole⟩
  | cons t before ih =>
    obtain ⟨gap, text, rfl, isGap, stops⟩ := exists_gap p s
    rw [scanFrom_gap isGap rfl] at whole
    cases stops with
    | openEnd isEnd read =>
      rw [read, tokens_scanFrom_nil] at whole
      cases whole
    | @token c r noGap =>
      rw [scanFrom_cons noGap, Stream.push, List.cons_append, List.cons.injEq] at whole
      have next := here.after
      rw [← (isLexeme_lexeme c r).whole] at next
      exact ih (next.move (spans_lexeme c r)) whole.2

/-- Tokens of types that follow one another in a source are a row of words there. -/
theorem exists_row {source : List Char} {line : Nat} {before run behind : List Token}
    (whole : (scan source line).tokens = before ++ (run ++ behind))
    (types : ∀ t ∈ run, t.kind.isTypePart = true) :
    ∃ row : Row, Row.Covers source row run ∧ row.flush.Gaps ∧ row.apart [] = true := by
  obtain ⟨q, t, here, later⟩ := exists_place (Place.Reaches.first source line) whole
  obtain ⟨row, rest, rfl, rfl, apart, tail, -⟩ := exists_row_scanFrom later types
  refine ⟨row, ?_, ?_, Row.apart_alone apart⟩
  · by_cases empty : row = []
    · exact ⟨⟨0, 0, true⟩, [], source, by simp [empty], rfl, by rw [empty]; rfl⟩
    · have inside : q.offset ≤ source.length := by
        by_contra beyond
        have nothing := here.rest_eq
        rw [List.drop_of_length_le (by omega)] at nothing
        obtain ⟨w, r, rfl⟩ := List.exists_cons_of_ne_nil empty
        simp [SpacedWord.chars, w.word.chars_ne_nil] at nothing
      refine ⟨q, source.take q.offset, rest, ?_, by simp [inside], rfl⟩
      rw [List.append_assoc, ← here.rest_eq, List.take_append_drop]
  · intro w member
    cases row with
    | nil => cases member
    | cons v r =>
      rcases List.mem_cons.mp member with rfl | member
      · exact .nil false
      · exact tail w member

end Token

/-! ### Types -/

namespace Row

/-- A row whose words stay apart is scanned to them, whatever its gaps are. -/
theorem kinds_scan_of_gaps {row : Row} (gaps : row.Gaps) (apart : row.apart [] = true)
    (noHash : ∀ w ∈ row, w.word.isHash = false) (line : Nat) :
    (Token.scan row.chars line).tokens.map (·.kind) = row.kinds := by
  have scanned := Token.scanFrom_gaps gaps apart noHash (Place.first line)
  rw [List.append_nil] at scanned
  rw [Token.scan, scanned, Token.Stream.pushAll, List.map_append, kinds_tokensFrom,
    Token.tokens_scanFrom_nil]
  exact List.append_nil _

theorem isHash_of_types {row : Row} (types : row.kinds.all (·.isTypePart) = true) :
    ∀ w ∈ row, w.word.isHash = false := by
  intro w member
  have part := List.all_eq_true.mp types _ (List.mem_map_of_mem member)
  rw [Word.isHash, beq_eq_false_iff_ne]
  intro hash
  rw [hash] at part
  cases part

theorem isTight_inner (row : Row) : Text.IsTight row.inner :=
  ⟨row.head?_inner_solid, row.getLast?_inner_solid⟩

end Row

namespace Declaration

variable {source : List Char} {line : Nat} {before run behind : List Token} {first last : Token}

/-- The text from the first to the last token of a type is scanned to the tokens of the type, and
with a star behind it to those and a star. -/
theorem kinds_textBetween
    (whole : (Token.scan source line).tokens = before ++ (run ++ behind))
    (types : ∀ t ∈ run, t.kind.isTypePart = true) (head : run.head? = some first)
    (final : run.getLast? = some last) :
    Token.kinds (textBetween source first last).toList = run.map (·.kind) ∧
      Token.kinds (textBetween source first last ++ "*").toList = run.map (·.kind) ++ [.star] := by
  obtain ⟨row, covers, gaps, apart⟩ := Token.exists_row whole types
  have parts : row.kinds.all (·.isTypePart) = true := by
    rw [← covers.kinds_eq, List.all_map, List.all_eq_true]
    exact types
  have text : (textBetween source first last).toList = row.flush.chars := by
    rw [textBetween, Text.trim, Span.text, String.toList_ofList, String.toList_ofList,
      covers.text_eq head final, row.isTight_inner.trimChars_eq, Row.chars_flush]
  have flushed : row.flush.kinds = row.kinds := by cases row <;> rfl
  have partsFlush : row.flush.kinds.all (·.isTypePart) = true := by
    rw [flushed]
    exact parts
  have apartFlush : row.flush.apart [] = true := (row.apart_flush []).trans apart
  constructor
  · rw [text, Token.kinds, Row.kinds_scan_of_gaps gaps apartFlush (Row.isHash_of_types partsFlush),
      flushed, covers.kinds_eq]
  · have starred : (textBetween source first last ++ "*").toList =
        (Row.starred row.flush).chars := by
      rw [String.toList_append, text, Row.starred, Row.chars_append]
      rfl
    have gapsStarred : (Row.starred row.flush).Gaps := by
      intro w member
      rcases List.mem_append.mp member with member | member
      · exact gaps w member
      · rw [List.mem_singleton.mp member]
        exact .nil false
    have kinds : (Row.starred row.flush).kinds = row.kinds ++ [.star] := by
      rw [Row.starred, Row.kinds_append, flushed]
      rfl
    have partsStarred : (Row.starred row.flush).kinds.all (·.isTypePart) = true := by
      rw [kinds, List.all_append, parts]
      rfl
    rw [starred, Token.kinds, Row.kinds_scan_of_gaps gapsStarred
      (Row.apart_starred partsFlush apartFlush) (Row.isHash_of_types partsStarred), kinds,
      covers.kinds_eq]

end Declaration

end ScriptGlue
