import ScriptGlue.Proofs.Source.Word

/-!
# Rows of words

A row is a sequence of words with the gaps before them. The scanner reads a row word by word if no
word fuses with what follows it, and the tokens tell where in the source each word stands. Squeezing
a source squeezes its rows word by word.
-/
namespace ScriptGlue

open Token (Kind)

/-- A word and what stands before it. -/
structure SpacedWord where
  gap : List Char
  word : Word

namespace Word

def text (w : Word) : String := String.ofList w.chars

def spaced (ws : List Word) : String := " ".intercalate (ws.map (·.text))

end Word

namespace SpacedWord

def chars (w : SpacedWord) : List Char := w.gap ++ w.word.chars

/-- The word with one space or nothing before it. -/
def squeezed (w : SpacedWord) : SpacedWord :=
  ⟨Text.heldSpace (!w.gap.isEmpty), w.word.squeezed⟩

end SpacedWord

/-- Words in order, with the gaps between them. -/
abbrev Row := List SpacedWord

namespace Row

def chars (row : Row) : List Char := row.flatMap SpacedWord.chars

/-- The text of a row from its first word on. -/
def inner : Row → List Char
  | [] => []
  | w :: r => w.word.chars ++ chars r

def words (row : Row) : List Word := row.map (·.word)

def kinds (row : Row) : List Kind := row.map (·.word.kind)

/-- Words with one space between neighbours, behind a gap. -/
def ofWords (gap : List Char) : List Word → Row
  | [] => []
  | w :: r => ⟨gap, w⟩ :: ofWords [' '] r

/-- Whether no word of a row fuses with what follows; the row is followed by `rest`. -/
def apart : Row → List Char → Bool
  | [], _ => true
  | w :: r, rest => !w.word.fuses (chars r ++ rest) && apart r rest

/-- The row with one space in the place of each gap that is not empty. -/
def squeezed (row : Row) : Row := row.map (·.squeezed)

/-- All gaps are blank. -/
def Blanks (row : Row) : Prop := ∀ w ∈ row, ∀ c ∈ w.gap, Text.isBlank c = true

/-- All gaps are made of spaces. -/
def Spaces (row : Row) : Prop := ∀ w ∈ row, ∀ c ∈ w.gap, c = ' '

def tokensFrom : Place → Row → List Token
  | _, [] => []
  | p, w :: r =>
    let start := p.after w.gap
    let stop := start.after w.word.chars
    ⟨w.word.kind, ⟨start.offset, stop.offset, start.line⟩⟩ :: tokensFrom stop r

@[simp] theorem chars_nil : chars [] = [] := rfl

@[simp] theorem chars_cons (w : SpacedWord) (r : Row) : chars (w :: r) = w.chars ++ chars r := by
  simp [chars]

@[simp] theorem chars_append (a b : Row) : chars (a ++ b) = chars a ++ chars b := by
  simp [chars]

theorem chars_eq_inner {w : SpacedWord} (r : Row) : chars (w :: r) = w.gap ++ inner (w :: r) := by
  simp [inner, SpacedWord.chars]

@[simp] theorem kinds_nil : kinds [] = [] := rfl

@[simp] theorem kinds_cons (w : SpacedWord) (r : Row) :
    kinds (w :: r) = w.word.kind :: kinds r := rfl

@[simp] theorem kinds_append (a b : Row) : kinds (a ++ b) = kinds a ++ kinds b := List.map_append

@[simp] theorem words_append (a b : Row) : words (a ++ b) = words a ++ words b := List.map_append

theorem kinds_eq_map_words (row : Row) : row.kinds = row.words.map (·.kind) := by
  simp [kinds, words]

@[simp] theorem squeezed_append (a b : Row) : squeezed (a ++ b) = squeezed a ++ squeezed b :=
  List.map_append

theorem inner_append {a : Row} (ne : a ≠ []) (b : Row) : inner (a ++ b) = inner a ++ chars b := by
  obtain ⟨w, r, rfl⟩ := List.exists_cons_of_ne_nil ne
  simp [inner]

theorem apart_append (a b : Row) (rest : List Char) :
    apart (a ++ b) rest = (apart a (chars b ++ rest) && apart b rest) := by
  induction a with
  | nil => rfl
  | cons w r ih =>
    rw [List.cons_append, apart, apart, ih, chars_append, List.append_assoc, Bool.and_assoc]

/-- Words that stay apart stay so when what follows them is gone. -/
theorem apart_alone {row : Row} {rest : List Char} (apart : row.apart rest = true) :
    row.apart [] = true := by
  induction row with
  | nil => rfl
  | cons w r ih =>
    rw [Row.apart, Bool.and_eq_true, Bool.not_eq_true'] at apart ⊢
    refine ⟨?_, ih apart.2⟩
    rw [List.append_nil, Bool.eq_false_iff]
    intro together
    rw [Word.fuses_append together rest] at apart
    cases apart.1

@[simp] theorem words_ofWords (gap : List Char) (ws : List Word) : (ofWords gap ws).words = ws := by
  induction ws generalizing gap with
  | nil => rfl
  | cons w r ih => simpa [ofWords, words] using ih [' ']

theorem length_ofWords (gap : List Char) (ws : List Word) :
    (ofWords gap ws).length = ws.length := by
  rw [← congrArg List.length (words_ofWords gap ws), words, List.length_map]

theorem kinds_ofWords (gap : List Char) (ws : List Word) :
    (ofWords gap ws).kinds = ws.map (·.kind) := by
  rw [kinds_eq_map_words, words_ofWords]

theorem inner_ofWords (gap : List Char) (ws : List Word) :
    inner (ofWords gap ws) = (Word.spaced ws).toList := by
  induction ws generalizing gap with
  | nil => rfl
  | cons w r ih =>
    cases r with
    | nil => simp [ofWords, inner, Word.spaced, Word.text]
    | cons v r =>
      have rest := ih [' ']
      rw [ofWords, inner, ofWords, chars_eq_inner, ← ofWords, rest]
      simp [Word.spaced, Word.text, String.intercalate_cons_cons]

theorem take_ofWords (gap : List Char) (ws : List Word) (n : Nat) :
    (ofWords gap ws).take n = ofWords gap (ws.take n) := by
  induction ws generalizing gap n with
  | nil => simp [ofWords]
  | cons w r ih =>
    cases n with
    | zero => rfl
    | succ n => rw [ofWords, List.take_succ_cons, List.take_succ_cons, ofWords, ih]

/-- Words behind single spaces stay apart as long as nothing goes on with the last of them. -/
theorem apart_ofWords (gap : List Char) (ws : List Word) {rest : List Char}
    (stop : ∀ c ∈ rest.head?, Word.stops c = true) : (ofWords gap ws).apart rest = true := by
  induction ws generalizing gap with
  | nil => rfl
  | cons w r ih =>
    have next : ∀ c ∈ (chars (ofWords [' '] r) ++ rest).head?, Word.stops c = true := by
      cases r with
      | nil => exact stop
      | cons v r =>
        intro c head
        cases head
        decide
    rw [ofWords, apart, w.fuses_of_stops next, ih]
    rfl

theorem blanks_append {a b : Row} (first : a.Blanks) (second : b.Blanks) : Blanks (a ++ b) := by
  intro w member
  rcases List.mem_append.mp member with member | member
  · exact first w member
  · exact second w member

theorem blanks_ofWords {gap : List Char} (blank : ∀ c ∈ gap, Text.isBlank c = true)
    (ws : List Word) : (ofWords gap ws).Blanks := by
  induction ws generalizing gap with
  | nil => simp [ofWords, Blanks]
  | cons w r ih =>
    intro v member
    rcases List.mem_cons.mp member with rfl | member
    · exact blank
    · exact ih (by decide) v member

/-- Words behind given gaps. -/
def ofGaps (gaps : List String) (ws : List Word) : Row :=
  List.zipWith (fun gap w => ⟨gap.toList, w⟩) gaps ws

theorem words_ofGaps {gaps : List String} {ws : List Word} (count : gaps.length = ws.length) :
    (ofGaps gaps ws).words = ws := by
  induction gaps generalizing ws with
  | nil => rw [List.length_eq_zero_iff.mp count.symm]; rfl
  | cons gap gaps ih =>
    cases ws with
    | nil => cases count
    | cons w ws => exact congrArg (w :: ·) (ih (Nat.succ.inj count))

theorem blanks_ofGaps {gaps : List String} {ws : List Word}
    (blank : ∀ gap ∈ gaps, ∀ c ∈ gap.toList, Text.isBlank c = true) : (ofGaps gaps ws).Blanks := by
  induction gaps generalizing ws with
  | nil => simp [ofGaps, Blanks]
  | cons gap gaps ih =>
    cases ws with
    | nil => simp [ofGaps, Blanks]
    | cons w ws =>
      intro v member
      rcases List.mem_cons.mp member with rfl | member
      · exact blank gap List.mem_cons_self
      · exact ih (fun g inside => blank g (List.mem_cons_of_mem _ inside)) v member

theorem blanks_intercalate {sep : Row} {rows : List Row} (between : sep.Blanks)
    (each : ∀ row ∈ rows, row.Blanks) : Blanks (sep.intercalate rows) := by
  induction rows with
  | nil => simp [Blanks]
  | cons a r ih =>
    have first := each a List.mem_cons_self
    have rest := ih fun row member => each row (List.mem_cons_of_mem _ member)
    cases r with
    | nil => rwa [List.intercalate_singleton]
    | cons b r =>
      rw [List.intercalate_cons_cons]
      exact blanks_append (blanks_append first between) rest

/-- The row without the gap before its first word. -/
def flush : Row → Row
  | [] => []
  | w :: r => ⟨[], w.word⟩ :: r

@[simp] theorem chars_flush (row : Row) : row.flush.chars = row.inner := by
  cases row <;> rfl

@[simp] theorem words_flush (row : Row) : row.flush.words = row.words := by
  cases row <;> rfl

@[simp] theorem apart_flush (row : Row) (rest : List Char) :
    row.flush.apart rest = row.apart rest := by
  cases row <;> rfl

theorem gap_flush (row : Row) : ∀ w ∈ row.flush.head?, w.gap = [] := by
  intro w head
  cases row with
  | nil => cases head
  | cons v r =>
    cases head
    rfl

theorem blanks_flush {row : Row} (blanks : row.Blanks) : row.flush.Blanks := by
  cases row with
  | nil => exact blanks
  | cons v r =>
    intro w member
    rcases List.mem_cons.mp member with rfl | member
    · exact fun c inGap => absurd inGap List.not_mem_nil
    · exact blanks w (List.mem_cons_of_mem _ member)

theorem spaces_ofWords {gap : List Char} (spaces : ∀ c ∈ gap, c = ' ') (ws : List Word) :
    (ofWords gap ws).Spaces := by
  induction ws generalizing gap with
  | nil => simp [ofWords, Spaces]
  | cons w r ih =>
    intro v member
    rcases List.mem_cons.mp member with rfl | member
    · exact spaces
    · exact ih (by simp) v member

/-- A row with no gap before its first word starts with the word. -/
theorem chars_eq_inner_of_flush {row : Row} (flush : ∀ w ∈ row.head?, w.gap = []) :
    row.chars = row.inner := by
  cases row with
  | nil => rfl
  | cons w r => rw [chars_eq_inner, flush w rfl, List.nil_append]

theorem head?_inner_append {row : Row} (ne : row ≠ []) (rest : List Char) :
    (row.inner ++ rest).head? = row.inner.head? := by
  obtain ⟨w, r, rfl⟩ := List.exists_cons_of_ne_nil ne
  obtain ⟨d, s, whole⟩ := List.exists_cons_of_ne_nil w.word.chars_ne_nil
  rw [inner, whole]
  rfl

theorem head?_inner_solid (row : Row) : ∀ c ∈ row.inner.head?, Text.isBlank c = false := by
  cases row with
  | nil => simp [inner]
  | cons w r =>
    intro c head
    obtain ⟨d, s, whole⟩ := List.exists_cons_of_ne_nil w.word.chars_ne_nil
    rw [inner, whole, List.cons_append] at head
    exact w.word.head_solid c (by rw [whole]; exact head)

theorem getLast?_chars_solid (row : Row) : ∀ c ∈ row.chars.getLast?, Text.isBlank c = false := by
  induction row with
  | nil => simp
  | cons w r ih =>
    intro c last
    rw [chars_cons, SpacedWord.chars, List.getLast?_append, List.getLast?_append] at last
    cases later : (chars r).getLast? with
    | some d =>
      rw [later] at last
      cases last
      exact ih c later
    | none =>
      rw [later, List.getLast?_eq_some_getLast w.word.chars_ne_nil] at last
      exact w.word.last_solid c (by
        rw [List.getLast?_eq_some_getLast w.word.chars_ne_nil]
        simpa using last)

theorem getLast?_inner_solid (row : Row) : ∀ c ∈ row.inner.getLast?, Text.isBlank c = false := by
  cases row with
  | nil => simp [inner]
  | cons w r =>
    intro c last
    refine getLast?_chars_solid (⟨[], w.word⟩ :: r) c ?_
    rw [chars_cons, SpacedWord.chars, List.nil_append]
    exact last

end Row

/-! ### Places -/

namespace Place

@[simp] theorem after_nil (p : Place) : p.after [] = p := rfl

theorem after_append (p : Place) (a b : List Char) : p.after (a ++ b) = (p.after a).after b := by
  simp [after]

theorem offset_after (p : Place) (s : List Char) : (p.after s).offset = p.offset + s.length := by
  induction s generalizing p with
  | nil => rfl
  | cons c r ih =>
    have rest := ih (p.next c)
    have step : (p.next c).offset = p.offset + 1 := rfl
    rw [after, List.foldl_cons, ← after, rest, step, List.length_cons]
    omega

theorem eq_after (p : Place) (s : List Char) :
    { p.after s with offset := p.offset + s.length } = p.after s := by
  rw [← offset_after]

theorem fresh_of_fresh_after {gap : List Char} (spaces : ∀ c ∈ gap, c = ' ') {p : Place}
    (fresh : (p.after gap).fresh = true) : p.fresh = true := by
  induction gap generalizing p with
  | nil => exact fresh
  | cons c r ih =>
    have space : c = ' ' := spaces c List.mem_cons_self
    have step := ih (fun d member => spaces d (List.mem_cons_of_mem _ member)) fresh
    rw [space, next, Bool.or_eq_true, Bool.and_eq_true] at step
    rcases step with feed | ⟨before, -⟩
    · exact absurd feed (by decide)
    · exact before

/-- Behind a word, no directive can start. -/
theorem fresh_after_word (p : Place) (w : Word) : (p.after w.chars).fresh = false := by
  have last := w.last_solid _ (List.getLast?_eq_some_getLast w.chars_ne_nil)
  rw [← List.dropLast_concat_getLast w.chars_ne_nil, after_append]
  generalize w.chars.getLast w.chars_ne_nil = c at last
  have noFeed : (c == '\n') = false := by
    rw [beq_eq_false_iff_ne]
    rintro rfl
    exact absurd last (by decide)
  simp [after, next, last, noFeed]

end Place

/-! ### Scanning rows -/

namespace Token

def Stream.pushAll (ts : List Token) (s : Stream) : Stream := { s with tokens := ts ++ s.tokens }

theorem scanFrom_nil (p : Place) : scanFrom p [] = ⟨[], ⟨p.offset, p.offset, p.line⟩⟩ := by
  rw [scanFrom]
  rfl

theorem tokens_scanFrom_nil (p : Place) : (scanFrom p []).tokens = [] := by rw [scanFrom_nil]

theorem scanFrom_space (p : Place) (s : List Char) :
    scanFrom p (' ' :: s) = scanFrom (p.next ' ') s := by
  have gap : gap? p.fresh (' ' :: s) = some ⟨[' '], s⟩ := rfl
  rw [scanFrom]
  split
  · rename_i cut found
    rw [gap] at found
    cases found
    rfl
  · rename_i found
    rw [gap] at found
    cases found

theorem scanFrom_spaces {gap : List Char} (spaces : ∀ c ∈ gap, c = ' ') (p : Place)
    (s : List Char) : scanFrom p (gap ++ s) = scanFrom (p.after gap) s := by
  induction gap generalizing p with
  | nil => rfl
  | cons c r ih =>
    have space : c = ' ' := spaces c List.mem_cons_self
    have rest := ih (fun d member => spaces d (List.mem_cons_of_mem _ member)) (p.next ' ')
    rw [space, List.cons_append, scanFrom_space, rest]
    rfl

/-- Where no gap starts, the next lexeme is taken, and scanning goes on behind it. -/
theorem scanFrom_cons {p : Place} {c : Char} {r : List Char}
    (noGap : gap? p.fresh (c :: r) = none) :
    scanFrom p (c :: r) =
      (scanFrom { p.after (lexeme c r).cut.piece with offset := p.offset + (lexeme c r).width }
        (lexeme c r).cut.rest).push
        ⟨(lexeme c r).kind, ⟨p.offset, p.offset + (lexeme c r).width, p.line⟩⟩ := by
  rw [scanFrom]
  split
  · rename_i cut found
    rw [noGap] at found
    cases found
  · rfl

/-- The scanner takes a word off the front. -/
theorem scanFrom_word {w : Word} {s : List Char} (alone : w.fuses s = false) (p : Place)
    (here : p.fresh = true → w.isHash = false) :
    scanFrom p (w.chars ++ s) =
      (scanFrom (p.after w.chars) s).push
        ⟨w.kind, ⟨p.offset, (p.after w.chars).offset, p.line⟩⟩ := by
  have noGap := Word.gap?_eq_none alone here
  obtain ⟨c, r, whole⟩ := List.exists_cons_of_ne_nil w.chars_ne_nil
  rw [whole, List.cons_append] at noGap
  rw [whole, List.cons_append, scanFrom_cons noGap, Word.lexeme_eq whole alone, ← whole,
    Place.eq_after, Place.offset_after]

/-- The scanner reads a row word by word. -/
theorem scanFrom_row {row : Row} {rest : List Char} (spaces : row.Spaces)
    (apart : row.apart rest = true) (p : Place)
    (here : p.fresh = true → ∀ w ∈ row.head?, w.word.isHash = false) :
    scanFrom p (row.chars ++ rest) =
      (scanFrom (p.after row.chars) rest).pushAll (row.tokensFrom p) := by
  induction row generalizing p with
  | nil => rfl
  | cons w r ih =>
    simp only [Row.apart, Bool.and_eq_true, Bool.not_eq_true'] at apart
    have blank : ∀ c ∈ w.gap, c = ' ' := spaces w List.mem_cons_self
    have later := ih (fun v member => spaces v (List.mem_cons_of_mem _ member)) apart.2
      ((p.after w.gap).after w.word.chars) (fun isFresh => by
        rw [Place.fresh_after_word] at isFresh
        cases isFresh)
    have here' : (p.after w.gap).fresh = true → w.word.isHash = false := by
      intro isFresh
      exact here (Place.fresh_of_fresh_after blank isFresh) w rfl
    rw [Row.chars_cons, SpacedWord.chars, List.append_assoc, List.append_assoc,
      scanFrom_spaces blank, scanFrom_word apart.1 _ here', later, Place.after_append,
      Place.after_append]
    rfl

end Token

/-- A span that leaves out what stands before and after a text covers the text. -/
theorem Span.slice_middle (a b c : List Char) (line : Nat) :
    Span.slice ⟨a.length, a.length + b.length, line⟩ (a ++ (b ++ c)) = b := by
  have bound : a.length + b.length ≤ (a ++ (b ++ c)).length := by
    simp only [List.length_append]
    omega
  rw [Span.slice]
  simp only [Nat.min_eq_left bound, Nat.min_eq_left (Nat.le_add_right _ _), List.drop_left,
    Nat.add_sub_cancel_left, List.take_left]

namespace Row

@[simp] theorem length_tokensFrom (row : Row) (p : Place) :
    (row.tokensFrom p).length = row.length := by
  induction row generalizing p with
  | nil => rfl
  | cons w r ih => simp [tokensFrom, ih]

theorem kinds_tokensFrom (row : Row) (p : Place) :
    (row.tokensFrom p).map (·.kind) = row.kinds := by
  induction row generalizing p with
  | nil => rfl
  | cons w r ih => simp [tokensFrom, ih]

theorem tokensFrom_append (a b : Row) (p : Place) :
    (a ++ b).tokensFrom p = a.tokensFrom p ++ b.tokensFrom (p.after a.chars) := by
  induction a generalizing p with
  | nil => rfl
  | cons w r ih =>
    simp [tokensFrom, ih, SpacedWord.chars, Place.after_append]

theorem tokensFrom_take (row : Row) (n : Nat) (p : Place) :
    tokensFrom p (row.take n) = (row.tokensFrom p).take n := by
  induction row generalizing n p with
  | nil => simp [tokensFrom]
  | cons w r ih =>
    cases n with
    | zero => rfl
    | succ n => simp [tokensFrom, ih]

theorem head?_tokensFrom {w : SpacedWord} {r : Row} {p : Place} {t : Token}
    (head : (tokensFrom p (w :: r)).head? = some t) :
    t.span.start = p.offset + w.gap.length := by
  cases head
  exact Place.offset_after p w.gap

theorem getLast?_tokensFrom {row : Row} {p : Place} {t : Token}
    (last : (row.tokensFrom p).getLast? = some t) :
    t.span.stop = p.offset + row.chars.length := by
  induction row generalizing p with
  | nil => cases last
  | cons w r ih =>
    cases r with
    | nil =>
      simp only [tokensFrom, List.getLast?_singleton, Option.some.injEq] at last
      have start := Place.offset_after p w.gap
      have stop := Place.offset_after (p.after w.gap) w.word.chars
      rw [← last, chars_cons, SpacedWord.chars]
      simp only [chars_nil, List.append_nil, List.length_append]
      omega
    | cons v r =>
      have later := ih (p := (p.after w.gap).after w.word.chars) (by
        rw [tokensFrom] at last
        simpa [tokensFrom] using last)
      rw [later, Place.offset_after, Place.offset_after, chars_cons w, SpacedWord.chars]
      simp only [List.length_append]
      omega

/-- The tokens of a row that stands in a source. -/
def Covers (source : List Char) (row : Row) (ts : List Token) : Prop :=
  ∃ (p : Place) (before after : List Char), source = before ++ row.chars ++ after ∧
    p.offset = before.length ∧ ts = row.tokensFrom p

namespace Covers

variable {source : List Char} {row a b : Row} {ts : List Token}

theorem kinds_eq (covers : Covers source row ts) : ts.map (·.kind) = row.kinds := by
  obtain ⟨p, before, after, -, -, rfl⟩ := covers
  exact kinds_tokensFrom row p

theorem length_eq (covers : Covers source row ts) : ts.length = row.length := by
  obtain ⟨p, before, after, -, -, rfl⟩ := covers
  exact length_tokensFrom row p

/-- The parts of a row have the parts of its tokens. -/
theorem append (covers : Covers source (a ++ b) ts) :
    ∃ ta tb, ts = ta ++ tb ∧ Covers source a ta ∧ Covers source b tb := by
  obtain ⟨p, before, after, whole, place, rfl⟩ := covers
  refine ⟨a.tokensFrom p, b.tokensFrom (p.after a.chars), tokensFrom_append a b p, ?_, ?_⟩
  · exact ⟨p, before, b.chars ++ after, by simp [whole], place, rfl⟩
  · exact ⟨p.after a.chars, before ++ a.chars, after, by simp [whole],
      by simp [Place.offset_after, place], rfl⟩

theorem take (covers : Covers source row ts) (n : Nat) :
    Covers source (row.take n) (ts.take n) := by
  obtain ⟨p, before, after, whole, place, rfl⟩ := covers
  have parts := chars_append (row.take n) (row.drop n)
  rw [List.take_append_drop] at parts
  exact ⟨p, before, chars (row.drop n) ++ after, by simp [whole, parts], place,
    (tokensFrom_take row n p).symm⟩

/-- Tokens that stand next to each other cover the words that do. -/
theorem of_infix {pairs part : List (SpacedWord × Token)}
    (covers : Covers source (pairs.map Prod.fst) (pairs.map Prod.snd)) (inside : part <:+: pairs) :
    Covers source (part.map Prod.fst) (part.map Prod.snd) := by
  obtain ⟨x, y, rfl⟩ := inside
  rw [List.map_append, List.map_append, List.map_append, List.map_append] at covers
  obtain ⟨tz, ty, split, front, -⟩ := covers.append
  obtain ⟨tx, tp, split', -, back⟩ := front.append
  have sameFront := (List.append_inj split (by simp [front.length_eq])).1
  have samePart := (List.append_inj' (sameFront.trans split') (by simp [back.length_eq])).2
  rwa [samePart]

/-- A span from the first to the last token covers the row from its first word on. -/
theorem text_eq (covers : Covers source row ts) {first last : Token}
    (head : ts.head? = some first) (final : ts.getLast? = some last) (line : Nat) :
    Span.slice ⟨first.span.start, last.span.stop, line⟩ source = row.inner := by
  obtain ⟨p, before, after, whole, place, rfl⟩ := covers
  cases row with
  | nil => cases head
  | cons w r =>
    have start := head?_tokensFrom head
    have stop := getLast?_tokensFrom final
    have inside : source = (before ++ w.gap) ++ (inner (w :: r) ++ after) := by
      rw [whole, chars_eq_inner]
      simp
    rw [chars_eq_inner, List.length_append, ← Nat.add_assoc] at stop
    rw [start, stop, place, inside, ← List.length_append, Span.slice_middle]

end Covers

end Row

/-! ### Squeezing rows -/

namespace Row

/-- A row is squeezed gap by gap. -/
theorem squeeze_chars {row : Row} (blanks : row.Blanks) (rest : List Char) :
    Text.squeeze false (row.chars ++ rest) =
      row.squeezed.chars ++ Text.squeeze false rest := by
  induction row with
  | nil => rfl
  | cons w r ih =>
    have later := ih fun v member => blanks v (List.mem_cons_of_mem _ member)
    rw [chars_cons, SpacedWord.chars, List.append_assoc, List.append_assoc,
      Text.squeeze_append_blanks (blanks w List.mem_cons_self), Word.squeeze_chars, later]
    simp [squeezed, SpacedWord.squeezed, SpacedWord.chars]

theorem squeezed_intercalate (sep : Row) (rows : List Row) :
    squeezed (sep.intercalate rows) = (squeezed sep).intercalate (rows.map squeezed) := by
  induction rows with
  | nil => rfl
  | cons a r ih =>
    cases r with
    | nil => simp
    | cons b r =>
      rw [List.intercalate_cons_cons, squeezed_append, squeezed_append, ih]
      simp [List.intercalate_cons_cons]

theorem squeezed_ofWords {gap : List Char} (single : Text.heldSpace (!gap.isEmpty) = gap)
    (ws : List Word) : (ofWords gap ws).squeezed = ofWords gap (ws.map (·.squeezed)) := by
  induction ws generalizing gap with
  | nil => rfl
  | cons w r ih =>
    have rest := @ih [' '] rfl
    rw [squeezed] at rest ⊢
    rw [ofWords, List.map_cons, rest, SpacedWord.squeezed, single]
    rfl

theorem outline_kinds_squeezed (row : Row) :
    row.squeezed.kinds.map Word.outline = row.kinds.map Word.outline := by
  simp [squeezed, kinds, SpacedWord.squeezed, Word.outline_squeezed]

/-- Words that are no literals are squeezed as they are. -/
theorem words_squeezed {row : Row} (plain : ∀ w ∈ row.words, w.isPlain = true) :
    row.squeezed.words = row.words := by
  rw [words, squeezed, words, List.map_map, List.map_inj_left]
  intro w member
  exact Word.squeezed_of_isPlain (plain _ (List.mem_map_of_mem member))

theorem squeezed_spaces (row : Row) : row.squeezed.Spaces := by
  intro w member c inGap
  obtain ⟨v, -, rfl⟩ := List.mem_map.mp member
  simp only [SpacedWord.squeezed, Text.heldSpace] at inGap
  split at inGap
  · exact List.mem_singleton.mp inGap
  · cases inGap

end Row

namespace Word

/-- Squeezing what follows a word does not let them fuse, nor take them apart. -/
theorem fuses_squeeze (w : Word) (s : List Char) :
    w.fuses (Text.squeeze false s) = w.fuses s := by
  cases w with
  | ident name valid =>
    exact Text.head?_any_squeeze (fun c rest => Text.isBlank_of_isIdentRest rest) s
  | number spelling valid =>
    exact Text.head?_any_squeeze (fun c rest => isBlank_of_isNumberRest rest) s
  | literal inside valid => rfl
  | ellipsis => rfl
  | mark c valid =>
    simp only [fuses, Text.dots_squeeze, Text.head?_beq_squeeze (c := '/') (by decide),
      Text.head?_beq_squeeze (c := '*') (by decide)]

end Word

namespace Row

theorem apart_squeezed {row : Row} (blanks : row.Blanks) (rest : List Char) :
    row.squeezed.apart (Text.squeeze false rest) = row.apart rest := by
  induction row with
  | nil => rfl
  | cons w r ih =>
    have laterBlanks : Blanks r := fun v member => blanks v (List.mem_cons_of_mem _ member)
    have later := ih laterBlanks
    rw [squeezed, List.map_cons, ← squeezed, apart, apart, later, ← squeeze_chars laterBlanks,
      SpacedWord.squeezed, Word.fuses_squeezed, Word.fuses_squeeze]

end Row

end ScriptGlue
