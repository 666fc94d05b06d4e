import ScriptGlue.Proofs.Text.Letters
import ScriptGlue.Proofs.Text.Squeeze
import ScriptGlue.Source.Scanner

/-!
# Words of a source

A word is the spelling of one token. What follows a word may go on with it: a letter with an
identifier, a slash with a slash. Where nothing does, the scanner reads the word and stops after it.
-/
namespace ScriptGlue

open Token (Kind)

/-- Whether a text is an identifier. -/
def isIdentifier (s : String) : Bool :=
  match s.toList with
  | [] => false
  | c :: r => Text.isIdentStart c && r.all Text.isIdentRest

/-- Whether a text is a number. -/
def isNumeral (s : String) : Bool :=
  match s.toList with
  | [] => false
  | c :: r => c.isDigit && r.all Token.isNumberRest

/-- Whether a text may stand between the quotes of a literal. -/
def isQuotable : List Char → Bool
  | [] => true
  | '\\' :: _ :: r => isQuotable r
  | c :: r => c != '\\' && c != '"' && c != '\n' && isQuotable r

/-- What a text between quotes stands for. -/
def unquoted : List Char → List Char
  | [] => []
  | '\\' :: c :: r => Token.unescape c :: unquoted r
  | c :: r => c :: unquoted r

theorem isQuotable_of_plain {s : List Char} (plain : ∀ c ∈ s, c ≠ '"' ∧ c ≠ '\\' ∧ c ≠ '\n') :
    isQuotable s = true := by
  induction s with
  | nil => rfl
  | cons c r ih =>
    obtain ⟨noQuote, noBackslash, noFeed⟩ := plain c List.mem_cons_self
    have rest := ih fun d member => plain d (List.mem_cons_of_mem _ member)
    rw [isQuotable]
    · simp [noQuote, noBackslash, noFeed, rest]
    · exact fun _ _ same => absurd same noBackslash

theorem unquoted_of_plain {s : List Char} (plain : ∀ c ∈ s, c ≠ '"' ∧ c ≠ '\\' ∧ c ≠ '\n') :
    unquoted s = s := by
  induction s with
  | nil => rfl
  | cons c r ih =>
    have noBackslash := (plain c List.mem_cons_self).2.1
    rw [unquoted, ih fun d member => plain d (List.mem_cons_of_mem _ member)]
    exact fun _ _ same => absurd same noBackslash

/-- Whether a character is a token on its own wherever it cannot start a longer one. -/
def isMark (c : Char) : Bool :=
  !Text.isBlank c && !Text.isIdentStart c && !c.isDigit && c != '"'

/-- The spelling of one token. -/
inductive Word where
  | ident (name : String) (valid : isIdentifier name = true)
  | number (spelling : String) (valid : isNumeral spelling = true)
  | literal (inside : List Char) (valid : isQuotable inside = true)
  | ellipsis
  | mark (c : Char) (valid : isMark c = true)

namespace Word

def chars : Word → List Char
  | ident name _ => name.toList
  | number spelling _ => spelling.toList
  | literal inside _ => '"' :: (inside ++ ['"'])
  | ellipsis => ['.', '.', '.']
  | mark c _ => [c]

def kind : Word → Kind
  | ident name _ => .ident name
  | number spelling _ => .number spelling
  | literal inside _ => .literal (String.ofList (unquoted inside))
  | ellipsis => .ellipsis
  | mark c _ => Token.markKind c

/-- Whether what follows a word would be read together with it. -/
def fuses : Word → List Char → Bool
  | ident _ _, s => s.head?.any Text.isIdentRest
  | number _ _, s => s.head?.any Token.isNumberRest
  | mark c _, s =>
    (c == '/' && (s.head? == some '/' || s.head? == some '*')) ||
      (c == '.' && ['.', '.'].isPrefixOf s)
  | _, _ => false

/-- Whether a word is no literal. -/
def isPlain : Word → Bool
  | literal _ _ => false
  | _ => true

end Word

/-! ### Characters of words -/

theorem isIdentifier_iff {s : String} : isIdentifier s = true ↔
    ∃ c r, s.toList = c :: r ∧ Text.isIdentStart c = true ∧ ∀ d ∈ r, Text.isIdentRest d = true := by
  unfold isIdentifier
  split
  · rename_i empty
    simp [empty]
  · rename_i c r whole
    rw [whole]
    simp [and_assoc]

theorem isNumeral_iff {s : String} : isNumeral s = true ↔
    ∃ c r, s.toList = c :: r ∧ c.isDigit = true ∧ ∀ d ∈ r, Token.isNumberRest d = true := by
  unfold isNumeral
  split
  · rename_i empty
    simp [empty]
  · rename_i c r whole
    rw [whole]
    simp [and_assoc]

theorem isIdentRest_of_mem {s : String} (valid : isIdentifier s = true) {c : Char}
    (member : c ∈ s.toList) : Text.isIdentRest c = true := by
  obtain ⟨d, r, whole, start, rest⟩ := isIdentifier_iff.mp valid
  rw [whole] at member
  rcases List.mem_cons.mp member with rfl | member
  · exact Text.isIdentRest_of_isIdentStart start
  · exact rest c member

theorem isBlank_of_isNumberRest {c : Char} (rest : Token.isNumberRest c = true) :
    Text.isBlank c = false := by
  simp only [Token.isNumberRest, Bool.or_eq_true, beq_iff_eq] at rest
  rcases rest with ascii | rfl
  · exact Text.isBlank_of_isIdentRest (Text.isIdentRest_of_isAlphanum ascii)
  · decide

namespace Word

theorem chars_ne_nil (w : Word) : w.chars ≠ [] := by
  cases w with
  | ident name valid =>
    obtain ⟨c, r, whole, -⟩ := isIdentifier_iff.mp valid
    simp [chars, whole]
  | number spelling valid =>
    obtain ⟨c, r, whole, -⟩ := isNumeral_iff.mp valid
    simp [chars, whole]
  | literal inside valid => simp [chars]
  | ellipsis => simp [chars]
  | mark c valid => simp [chars]

/-- A word that is no literal has no blanks. -/
theorem solid {w : Word} (plain : w.isPlain = true) : ∀ c ∈ w.chars, Text.isBlank c = false := by
  intro c member
  cases w with
  | ident name valid => exact Text.isBlank_of_isIdentRest (isIdentRest_of_mem valid member)
  | number spelling valid =>
    obtain ⟨d, r, whole, digit, rest⟩ := isNumeral_iff.mp valid
    simp only [chars, whole] at member
    rcases List.mem_cons.mp member with rfl | member
    · exact Text.isBlank_of_isIdentRest (Text.isIdentRest_of_isDigit digit)
    · exact isBlank_of_isNumberRest (rest c member)
  | literal inside valid => cases plain
  | ellipsis =>
    have dot : c = '.' := by simpa [chars] using member
    rw [dot]
    decide
  | mark d valid =>
    simp only [chars, List.mem_singleton] at member
    simp only [isMark, Bool.and_eq_true, Bool.not_eq_true'] at valid
    rw [member]
    exact valid.1.1.1

/-- A word starts with no blank. -/
theorem head_solid (w : Word) : ∀ c ∈ w.chars.head?, Text.isBlank c = false := by
  intro c head
  by_cases plain : w.isPlain = true
  · exact w.solid plain c (List.mem_of_mem_head? head)
  · cases w with
    | literal inside valid =>
      cases head
      decide
    | ident | number | ellipsis | mark => exact absurd rfl plain

/-- A word ends with no blank. -/
theorem last_solid (w : Word) : ∀ c ∈ w.chars.getLast?, Text.isBlank c = false := by
  intro c last
  by_cases plain : w.isPlain = true
  · exact w.solid plain c (List.mem_of_getLast? last)
  · cases w with
    | literal inside valid =>
      rw [chars, ← List.cons_append, List.getLast?_concat] at last
      cases last
      decide
    | ident | number | ellipsis | mark => exact absurd rfl plain

end Word

/-! ### Reading words -/

theorem span_stop {p : Char → Bool} {w s : List Char} (inside : ∀ c ∈ w, p c = true)
    (stop : s.head?.any p = false) : Cut.span p (w ++ s) = ⟨w, s⟩ := by
  induction w with
  | nil =>
    cases s with
    | nil => rfl
    | cons c r =>
      have first : ¬ p c = true := by simpa using stop
      rw [List.nil_append, Cut.span, if_neg first]
  | cons c r ih =>
    have rest := ih fun d member => inside d (List.mem_cons_of_mem _ member)
    rw [List.cons_append, Cut.span, if_pos (inside c List.mem_cons_self), rest]
    rfl

/-- A text that may stand in quotes is read up to the closing one. -/
theorem literalBody_quoted {inside : List Char} (quotable : isQuotable inside = true)
    (s : List Char) :
    Token.literalBody (inside ++ '"' :: s) = ⟨unquoted inside, ⟨inside ++ ['"'], s⟩, false⟩ := by
  fun_induction isQuotable inside with
  | case1 => simp [Token.literalBody, unquoted]
  | case2 c r ih =>
    rw [List.cons_append, List.cons_append, Token.literalBody, ih quotable]
    simp [Token.LiteralBody.push, unquoted]
  | case3 c r noPair ih =>
    simp only [Bool.and_eq_true, bne_iff_ne, ne_eq] at quotable
    obtain ⟨⟨⟨noBackslash, noQuote⟩, noFeed⟩, rest⟩ := quotable
    rw [List.cons_append, Token.literalBody, ih rest]
    · simp [Token.LiteralBody.push, unquoted]
    all_goals simp_all

namespace Word

/-- The scanner reads a word that does not fuse with what follows. -/
theorem lexeme_eq {w : Word} {c : Char} {r s : List Char} (whole : w.chars = c :: r)
    (alone : w.fuses s = false) :
    Token.lexeme c (r ++ s) = ⟨w.kind, ⟨c :: r, s⟩, w.chars.length⟩ := by
  cases w with
  | ident name valid =>
    obtain ⟨d, t, same, start, rest⟩ := isIdentifier_iff.mp valid
    simp only [chars] at whole
    obtain ⟨rfl, rfl⟩ := List.cons.inj (same.symm.trans whole)
    have cut := span_stop rest alone
    unfold Token.lexeme
    rw [if_pos start, cut]
    simp only [Cut.cons, kind, chars, whole, Token.Lexeme.mk.injEq, Kind.ident.injEq, and_true]
    rw [← whole, String.ofList_toList]
  | number spelling valid =>
    obtain ⟨d, t, same, digit, rest⟩ := isNumeral_iff.mp valid
    simp only [chars] at whole
    obtain ⟨rfl, rfl⟩ := List.cons.inj (same.symm.trans whole)
    have cut := span_stop rest alone
    have noStart : ¬ Text.isIdentStart d = true := by simp [Text.isIdentStart_of_isDigit digit]
    unfold Token.lexeme
    rw [if_neg noStart, if_pos digit, cut]
    simp only [Cut.cons, kind, chars, whole, Token.Lexeme.mk.injEq, Kind.number.injEq, and_true]
    rw [← whole, String.ofList_toList]
  | literal inside valid =>
    simp only [chars] at whole
    obtain ⟨rfl, rfl⟩ := List.cons.inj whole
    have noStart : ¬ Text.isIdentStart '"' = true := by decide
    have noDigit : ¬ '"'.isDigit = true := by decide
    have body := literalBody_quoted valid s
    unfold Token.lexeme
    rw [if_neg noStart, if_neg noDigit, if_pos rfl, List.append_assoc, List.singleton_append,
      body]
    simp [Cut.cons, kind, chars]
  | ellipsis =>
    obtain ⟨rfl, rfl⟩ := List.cons.inj whole
    have noStart : ¬ Text.isIdentStart '.' = true := by decide
    have noDigit : ¬ '.'.isDigit = true := by decide
    unfold Token.lexeme
    rw [if_neg noStart, if_neg noDigit, if_neg (by decide)]
    rfl
  | mark d valid =>
    obtain ⟨rfl, rfl⟩ := List.cons.inj whole
    simp only [isMark, Bool.and_eq_true, Bool.not_eq_true', bne_iff_ne, ne_eq] at valid
    obtain ⟨⟨⟨-, noStart⟩, noDigit⟩, noQuote⟩ := valid
    unfold Token.lexeme
    rw [if_neg (by simp [noStart]), if_neg (by simp [noDigit]), if_neg noQuote, List.nil_append]
    split
    · simp [fuses] at alone
    · rfl

theorem isSpace_of_isBlank {c : Char} (solid : Text.isBlank c = false) :
    Token.isSpace c = false := by
  cases space : Token.isSpace c with
  | false => rfl
  | true =>
    simp only [Token.isSpace, Bool.or_eq_true, beq_iff_eq] at space
    rcases space with ((rfl | rfl) | rfl) | rfl <;> exact absurd solid (by decide)

/-- The word that opens a directive where only blanks stand before it. -/
def isHash (w : Word) : Bool := w.kind == .other '#'

/-- Only a mark starts with a character that starts nothing longer. -/
theorem eq_mark_of_chars {w : Word} {c : Char} {r : List Char} (whole : w.chars = c :: r)
    (noStart : Text.isIdentStart c = false) (noDigit : c.isDigit = false) (noQuote : c ≠ '"')
    (noDot : c ≠ '.') : ∃ valid, w = mark c valid := by
  cases w with
  | ident name valid =>
    obtain ⟨d, t, same, start, -⟩ := isIdentifier_iff.mp valid
    obtain ⟨rfl, -⟩ := List.cons.inj (same.symm.trans whole)
    rw [start] at noStart
    cases noStart
  | number spelling valid =>
    obtain ⟨d, t, same, digit, -⟩ := isNumeral_iff.mp valid
    obtain ⟨rfl, -⟩ := List.cons.inj (same.symm.trans whole)
    rw [digit] at noDigit
    cases noDigit
  | literal inside valid => exact absurd (List.cons.inj whole).1.symm noQuote
  | ellipsis => exact absurd (List.cons.inj whole).1.symm noDot
  | mark d valid =>
    obtain ⟨rfl, -⟩ := List.cons.inj whole
    exact ⟨valid, rfl⟩

/-- A character that continues nothing stands in no longer word, literals apart. -/
theorem eq_mark_of_mem {w : Word} (plain : w.isPlain = true) {c : Char} (member : c ∈ w.chars)
    (noRest : Text.isIdentRest c = false) (noDot : c ≠ '.') : ∃ valid, w = mark c valid := by
  cases w with
  | ident name valid =>
    rw [isIdentRest_of_mem valid member] at noRest
    cases noRest
  | number spelling valid =>
    obtain ⟨d, t, whole, digit, rest⟩ := isNumeral_iff.mp valid
    rw [chars, whole] at member
    rcases List.mem_cons.mp member with rfl | member
    · rw [Text.isIdentRest_of_isDigit digit] at noRest
      cases noRest
    · have later := rest c member
      rw [Token.isNumberRest, Bool.or_eq_true, beq_iff_eq] at later
      rcases later with ascii | dot
      · rw [Text.isIdentRest_of_isAlphanum ascii] at noRest
        cases noRest
      · exact absurd dot noDot
  | literal inside valid => cases plain
  | ellipsis => exact absurd (by simpa [chars] using member) noDot
  | mark d valid =>
    obtain rfl : c = d := by simpa [chars] using member
    exact ⟨valid, rfl⟩

theorem isHash_of_isTypePart {w : Word} (part : w.kind.isTypePart = true) : w.isHash = false := by
  rw [isHash, beq_eq_false_iff_ne]
  intro hash
  rw [hash] at part
  cases part

/-- A word is no gap, unless it opens a directive. -/
theorem gap?_eq_none {w : Word} {fresh : Bool} {s : List Char} (alone : w.fuses s = false)
    (here : fresh = true → w.isHash = false) : Token.gap? fresh (w.chars ++ s) = none := by
  obtain ⟨c, r, whole⟩ := List.exists_cons_of_ne_nil w.chars_ne_nil
  have noSpace : ¬ Token.isSpace c = true := by
    have solid := w.head_solid c (by rw [whole]; rfl)
    simp [isSpace_of_isBlank solid]
  rw [whole, List.cons_append]
  unfold Token.gap?
  simp only [if_neg noSpace]
  split
  · rename_i tail next
    obtain ⟨valid, rfl⟩ := eq_mark_of_chars whole (by decide) (by decide) (by decide) (by decide)
    obtain ⟨-, rfl⟩ := List.cons.inj whole
    rw [List.nil_append] at next
    simp [fuses, next] at alone
  · rename_i tail next
    obtain ⟨valid, rfl⟩ := eq_mark_of_chars whole (by decide) (by decide) (by decide) (by decide)
    obtain ⟨-, rfl⟩ := List.cons.inj whole
    rw [List.nil_append] at next
    simp [fuses, next] at alone
  · obtain ⟨valid, rfl⟩ := eq_mark_of_chars whole (by decide) (by decide) (by decide) (by decide)
    have old : ¬ fresh = true := fun isFresh => by cases here isFresh
    rw [if_neg old]
  · rfl

end Word

namespace Word

/-- Whether no word goes on with a character. -/
def stops (c : Char) : Bool :=
  !Text.isIdentRest c && !Token.isNumberRest c && c != '/' && c != '*'

theorem fuses_of_stops (w : Word) {s : List Char} (stop : ∀ c ∈ s.head?, stops c = true) :
    w.fuses s = false := by
  cases s with
  | nil => cases w <;> simp [fuses, List.isPrefixOf]
  | cons c r =>
    have here := stop c rfl
    simp only [stops, Bool.and_eq_true, Bool.not_eq_true', bne_iff_ne, ne_eq] at here
    obtain ⟨⟨⟨noIdent, noNumber⟩, noSlash⟩, noStar⟩ := here
    have noDot : ¬ '.' = c := by
      rintro rfl
      exact absurd noNumber (by decide)
    cases w <;> simp [fuses, List.isPrefixOf, noIdent, noNumber, noSlash, noStar, noDot]

/-- Only slashes and points among the marks can fuse. -/
theorem fuses_mark {c : Char} {valid : isMark c = true} (noSlash : c ≠ '/') (noDot : c ≠ '.')
    (s : List Char) : (mark c valid).fuses s = false := by
  simp [fuses, noSlash, noDot]

/-- More text behind what follows a word does not take them apart. -/
theorem fuses_append {w : Word} {s : List Char} (together : w.fuses s = true) (t : List Char) :
    w.fuses (s ++ t) = true := by
  cases s with
  | nil =>
    have alone := w.fuses_of_stops (s := []) (by simp)
    rw [alone] at together
    cases together
  | cons c r =>
    cases w with
    | mark d valid =>
      simp only [fuses, Bool.or_eq_true, Bool.and_eq_true, List.isPrefixOf_iff_prefix] at together ⊢
      rcases together with slash | ⟨dot, dots⟩
      · exact .inl slash
      · exact .inr ⟨dot, dots.trans (List.prefix_append _ _)⟩
    | ident | number | literal | ellipsis => exact together

end Word

/-! ### Squeezing words -/

section

open Text

/-- Squeezing leaves a closed literal closed, whatever becomes of the blanks inside. -/
theorem squeeze_quotable {inside : List Char} (quotable : isQuotable inside = true) (held : Bool) :
    ∃ kept, isQuotable kept = true ∧
      ∀ s, squeeze held (inside ++ '"' :: s) = kept ++ '"' :: squeeze false s := by
  have quote : ¬ isBlank '"' = true := by decide
  fun_induction isQuotable inside generalizing held with
  | case1 =>
    refine ⟨heldSpace held, by cases held <;> rfl, fun s => ?_⟩
    rw [List.nil_append, squeeze, if_neg quote]
    cases held <;> simp [heldSpace]
  | case2 c r ih =>
    have backslash : ¬ isBlank '\\' = true := by decide
    by_cases blank : isBlank c = true
    · obtain ⟨kept, quotableKept, same⟩ := ih quotable true
      -- blanks behind a backslash become the one space that it escapes
      obtain ⟨rest, rfl⟩ : ∃ rest, kept = ' ' :: rest := by
        have spaced := squeeze_true (r ++ ['"'])
        rw [same [], if_neg (by simp [List.dropWhile_eq_nil_iff, quote])] at spaced
        cases kept with
        | nil => simp at spaced
        | cons d t => exact ⟨t, by rw [(List.cons.inj spaced).1]⟩
      have quotableRest : isQuotable rest = true := by simpa [isQuotable] using quotableKept
      refine ⟨heldSpace held ++ '\\' :: ' ' :: rest, ?_, fun s => ?_⟩
      · cases held <;> simp [heldSpace, isQuotable, quotableRest]
      · rw [List.cons_append, squeeze, if_neg backslash, List.cons_append, squeeze, if_pos blank,
          same s]
        cases held <;> simp [heldSpace]
    · obtain ⟨kept, quotableKept, same⟩ := ih quotable false
      refine ⟨heldSpace held ++ '\\' :: c :: kept, ?_, fun s => ?_⟩
      · cases held <;> simp [heldSpace, isQuotable, quotableKept]
      · rw [List.cons_append, squeeze, if_neg backslash, List.cons_append, squeeze, if_neg blank,
          same s]
        cases held <;> simp [heldSpace]
  | case3 c r noPair ih =>
    simp only [Bool.and_eq_true, bne_iff_ne, ne_eq] at quotable
    obtain ⟨⟨⟨noBackslash, noQuote⟩, noFeed⟩, rest⟩ := quotable
    by_cases blank : isBlank c = true
    · obtain ⟨kept, quotableKept, same⟩ := ih rest true
      refine ⟨kept, quotableKept, fun s => ?_⟩
      rw [List.cons_append, squeeze, if_pos blank, same s]
    · obtain ⟨kept, quotableKept, same⟩ := ih rest false
      refine ⟨heldSpace held ++ c :: kept, ?_, fun s => ?_⟩
      · cases held <;>
          simp [heldSpace, isQuotable, noBackslash, noQuote, noFeed, quotableKept]
      · rw [List.cons_append, squeeze, if_neg blank, same s]
        cases held <;> simp [heldSpace]

/-- What squeezing leaves of the text between quotes. -/
def squeezeInside (inside : List Char) : List Char :=
  (squeeze false (inside ++ ['"'])).dropLast

theorem squeeze_inside {inside : List Char} (quotable : isQuotable inside = true) (s : List Char) :
    squeeze false (inside ++ '"' :: s) = squeezeInside inside ++ '"' :: squeeze false s := by
  obtain ⟨kept, -, same⟩ := squeeze_quotable quotable false
  rw [squeezeInside, same [], same s, squeeze, List.dropLast_concat]

theorem isQuotable_squeezeInside {inside : List Char} (quotable : isQuotable inside = true) :
    isQuotable (squeezeInside inside) = true := by
  obtain ⟨kept, quotableKept, same⟩ := squeeze_quotable quotable false
  rw [squeezeInside, same [], squeeze, List.dropLast_concat]
  exact quotableKept

end

namespace Word

/-- What a kind of token is apart from the value of a literal. -/
def outline : Kind → Kind
  | .literal _ => .literal ""
  | kind => kind

/-- The word that squeezing leaves: only blanks inside a literal may change. -/
def squeezed : Word → Word
  | literal inside valid =>
    literal (squeezeInside inside) (isQuotable_squeezeInside valid)
  | w => w

theorem squeezed_of_isPlain {w : Word} (plain : w.isPlain = true) : w.squeezed = w := by
  cases w with
  | literal inside valid => cases plain
  | ident | number | ellipsis | mark => rfl

theorem outline_squeezed (w : Word) : outline w.squeezed.kind = outline w.kind := by
  cases w <;> rfl

theorem fuses_squeezed (w : Word) (s : List Char) : w.squeezed.fuses s = w.fuses s := by
  cases w <;> rfl

/-- Squeezing works word by word. -/
theorem squeeze_chars (w : Word) (held : Bool) (s : List Char) :
    Text.squeeze held (w.chars ++ s) =
      Text.heldSpace held ++ w.squeezed.chars ++ Text.squeeze false s := by
  by_cases plain : w.isPlain = true
  · rw [squeezed_of_isPlain plain]
    exact Text.squeeze_append w.chars_ne_nil (w.solid plain) held s
  · cases w with
    | literal inside valid =>
      have quote : ¬ Text.isBlank '"' = true := by decide
      rw [chars, List.cons_append, List.append_assoc, List.singleton_append, Text.squeeze,
        if_neg quote, squeeze_inside valid]
      cases held <;> simp [Text.heldSpace, squeezed, chars]
    | ident | number | ellipsis | mark => exact absurd rfl plain

end Word

end ScriptGlue
