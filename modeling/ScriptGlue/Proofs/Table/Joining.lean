import Mathlib.Data.List.Forall2
import ScriptGlue.Proofs.Declaration.Chunks
import ScriptGlue.Proofs.Source.Row
import ScriptGlue.Proofs.Table.Lines

/-!
# Joining lines

A row that is broken into lines where a parenthesis is open is joined to one line again, with a
space in the place of each break. The joining follows the row word by word: what has been joined so
far, and the current line, make up the row up to the current word.
-/
namespace ScriptGlue

open Token (Kind)

/-- How a token changes the number of open parentheses. -/
def Token.Kind.nesting : Kind → Int
  | .openParen => 1
  | .closeParen => -1
  | _ => 0

/-- How many more parentheses are opened than closed. -/
def nesting : List Kind → Int
  | [] => 0
  | k :: ks => k.nesting + nesting ks

@[simp] theorem nesting_nil : nesting [] = 0 := rfl

@[simp] theorem nesting_cons (k : Kind) (ks : List Kind) :
    nesting (k :: ks) = k.nesting + nesting ks := rfl

@[simp] theorem nesting_append (a b : List Kind) : nesting (a ++ b) = nesting a + nesting b := by
  induction a with
  | nil => simp
  | cons k r ih =>
    rw [List.cons_append, nesting_cons, nesting_cons, ih]
    omega

/-- What is balanced closes the parentheses that are open before it. -/
theorem nesting_of_isBalanced {depth : Nat} {ks : List Kind}
    (balanced : isBalanced depth ks = true) : nesting ks = -depth := by
  induction ks generalizing depth with
  | nil =>
    have closed : depth = 0 := by simpa [isBalanced] using balanced
    simp [closed]
  | cons k r ih =>
    cases k with
    | openParen =>
      have rest := ih balanced
      rw [nesting_cons, rest, Kind.nesting]
      omega
    | closeParen =>
      rw [isBalanced, Bool.and_eq_true, bne_iff_ne] at balanced
      have rest := ih balanced.2
      rw [nesting_cons, rest, Kind.nesting]
      omega
    | _ => simpa [Kind.nesting] using ih balanced

/-! ### Breaks -/

/-- The word with one space before it if it starts a line. -/
def SpacedWord.joined (w : SpacedWord) : SpacedWord :=
  if '\n' ∈ w.gap then ⟨[' '], w.word⟩ else w

@[simp] theorem SpacedWord.word_joined (w : SpacedWord) : w.joined.word = w.word := by
  rw [joined]
  split <;> rfl

namespace Row

def joined (row : Row) : Row := row.map (·.joined)

/-- Whether lines are broken only where a parenthesis is open; `depth` are open before the row. -/
def breaksInside (depth : Int) : Row → Bool
  | [] => true
  | w :: r =>
    (decide ('\n' ∉ w.gap) || decide (0 < depth)) && breaksInside (depth + w.word.kind.nesting) r

/-- Whether a row, wherever it starts, is joined to one line that ends where the row does. -/
structure Joins (row : Row) : Prop where
  nonempty : row ≠ []
  plain : ∀ w ∈ row.words, w.isPlain = true
  blanks : row.Blanks
  /-- Lines are broken behind the first word only where a parenthesis is open. -/
  breaks : ∀ w r, row = w :: r → breaksInside w.word.kind.nesting r = true
  closed : nesting row.kinds = 0

@[simp] theorem joined_cons (w : SpacedWord) (r : Row) :
    joined (w :: r) = w.joined :: joined r := rfl

theorem words_joined (row : Row) : row.joined.words = row.words := by
  rw [words, joined, words, List.map_map, List.map_inj_left]
  exact fun w _ => w.word_joined

theorem blanks_joined {row : Row} (blanks : row.Blanks) : row.joined.Blanks := by
  intro w member
  obtain ⟨v, inside, rfl⟩ := List.mem_map.mp member
  rw [SpacedWord.joined]
  split
  · have space : ∀ c ∈ [' '], Text.isBlank c = true := by decide
    exact space
  · exact blanks v inside

/-- Joining lines keeps what squeezing leaves. -/
theorem squeezed_joined (row : Row) : row.joined.squeezed = row.squeezed := by
  rw [squeezed, joined, squeezed, List.map_map, List.map_inj_left]
  intro w _
  rw [Function.comp_apply, SpacedWord.joined]
  split
  · rename_i feed
    have some : w.gap.isEmpty = false := by
      rw [List.isEmpty_eq_false_iff]
      exact List.ne_nil_of_mem feed
    rw [SpacedWord.squeezed, SpacedWord.squeezed, some]
    rfl
  · rfl

theorem apart_joined {row : Row} (blanks : row.Blanks) (rest : List Char) :
    row.joined.apart rest = row.apart rest := by
  rw [← apart_squeezed (blanks_joined blanks), squeezed_joined, apart_squeezed blanks]

end Row

namespace TableLines

/-! ### Parentheses -/

theorem parenBalance_cons (c : Char) (s : List Char) :
    parenBalance (c :: s) =
      (if c = '(' then 1 else if c = ')' then -1 else 0) + parenBalance s := by
  have start (n : Int) : s.foldl (fun n c => if c = '(' then n + 1 else if c = ')' then n - 1
      else n) n = n + parenBalance s := by
    unfold parenBalance
    induction s generalizing n with
    | nil => simp
    | cons d r ih =>
      rw [List.foldl_cons, List.foldl_cons, ih, ih (if d = '(' then _ else _)]
      split
      · omega
      · split <;> omega
  rw [parenBalance, List.foldl_cons, start]
  split
  · omega
  · split <;> omega

theorem parenBalance_append (a b : List Char) :
    parenBalance (a ++ b) = parenBalance a + parenBalance b := by
  induction a with
  | nil => simp [parenBalance]
  | cons c r ih =>
    rw [List.cons_append, parenBalance_cons, parenBalance_cons, ih]
    omega

theorem parenBalance_flat {s : List Char} (flat : ∀ c ∈ s, c ≠ '(' ∧ c ≠ ')') :
    parenBalance s = 0 := by
  induction s with
  | nil => rfl
  | cons c r ih =>
    have here := flat c List.mem_cons_self
    have rest := ih fun d member => flat d (List.mem_cons_of_mem _ member)
    rw [parenBalance_cons, if_neg here.1, if_neg here.2, rest]
    rfl

theorem parenBalance_blanks {gap : List Char} (blank : ∀ c ∈ gap, Text.isBlank c = true) :
    parenBalance gap = 0 := by
  apply parenBalance_flat
  intro c member
  constructor
  · rintro rfl
    exact absurd (blank _ member) (by decide)
  · rintro rfl
    exact absurd (blank _ member) (by decide)

/-- The characters of a word tell its kind. -/
theorem parenBalance_word {w : Word} (plain : w.isPlain = true) :
    parenBalance w.chars = w.kind.nesting := by
  by_cases opens : '(' ∈ w.chars
  · obtain ⟨valid, rfl⟩ := Word.eq_mark_of_mem plain opens (by decide) (by decide)
    rfl
  by_cases closes : ')' ∈ w.chars
  · obtain ⟨valid, rfl⟩ := Word.eq_mark_of_mem plain closes (by decide) (by decide)
    rfl
  have flat : parenBalance w.chars = 0 := by
    apply parenBalance_flat
    intro c member
    exact ⟨fun same => opens (same ▸ member), fun same => closes (same ▸ member)⟩
  rw [flat]
  cases w with
  | mark c valid =>
    have noOpen : c ≠ '(' := fun same => opens (by simp [Word.chars, same])
    have noClose : c ≠ ')' := fun same => closes (by simp [Word.chars, same])
    rw [Word.kind]
    unfold Token.markKind
    split <;> first | rfl | contradiction
  | ident | number | literal | ellipsis => rfl

/-! ### Joining -/

/-- What stands before the current line once it is joined to a pending one. -/
def heldText : Option SourceLine → List Char
  | some p => p.text.toList ++ [' ']
  | none => []

theorem toList_joinLine (pending : Option SourceLine) (t : List Char) (line : Nat) :
    (joinLine pending ⟨String.ofList t, line⟩).text.toList = heldText pending ++ t := by
  cases pending with
  | none => exact String.toList_ofList
  | some p =>
    have spelled : (joinLine (some p) ⟨String.ofList t, line⟩).text =
        p.text ++ " " ++ String.ofList t := rfl
    rw [spelled, String.toList_append, String.toList_append, String.toList_ofList,
      String.toList_ofList]
    rfl

theorem isLine_word {w : Word} (plain : w.isPlain = true) : IsLine w.chars where
  nonempty := w.chars_ne_nil
  unbroken := fun member => absurd (w.solid plain _ member) (by decide)
  head := w.head_solid
  last := w.last_solid

/-- A line goes on with a word. -/
theorem IsLine.append_word {t gap : List Char} (isLine : IsLine t) (sameLine : '\n' ∉ gap)
    {w : Word} (plain : w.isPlain = true) : IsLine (t ++ (gap ++ w.chars)) where
  nonempty := List.append_ne_nil_of_left_ne_nil isLine.nonempty _
  unbroken := by simp [isLine.unbroken, sameLine, (isLine_word plain).unbroken]
  head := by
    obtain ⟨c, r, whole⟩ := List.exists_cons_of_ne_nil isLine.nonempty
    have head := isLine.head
    rw [whole] at head ⊢
    exact head
  last := by
    have final := List.getLast?_eq_some_getLast w.chars_ne_nil
    rw [List.getLast?_append, List.getLast?_append, final, Option.some_or, Option.some_or, ← final]
    exact w.last_solid

/-- Behind `rest`, a line has ended and the lines of `after` follow. -/
def EndsLine (rest after : List Char) : Prop :=
  ∀ t, IsLine t → ∀ line, ∃ n,
    textLines line (t ++ rest) = ⟨String.ofList t, line⟩ :: textLines n after

/-- A line that leaves a parenthesis open becomes pending. -/
theorem joinOpen_open {pending : Option SourceLine} {t : List Char}
    (opens : 0 < parenBalance (heldText pending ++ t)) (line : Nat) (ls : List SourceLine) :
    joinOpen pending (⟨String.ofList t, line⟩ :: ls) =
      joinOpen (some (joinLine pending ⟨String.ofList t, line⟩)) ls := by
  rw [← toList_joinLine pending t line] at opens
  rw [joinOpen, if_pos opens]

/-- A line that leaves none open is done. -/
theorem joinOpen_closed {pending : Option SourceLine} {t : List Char}
    (closes : ¬ 0 < parenBalance (heldText pending ++ t)) (line : Nat) (ls : List SourceLine) :
    joinOpen pending (⟨String.ofList t, line⟩ :: ls) =
      ⟨String.ofList (heldText pending ++ t), (joinLine pending ⟨String.ofList t, line⟩).line⟩ ::
        joinOpen none ls := by
  rw [← toList_joinLine pending t line] at closes
  rw [joinOpen, if_neg closes, ← toList_joinLine pending t line, String.ofList_toList]

/-- A row is joined to one line if it is broken only where parentheses are open, and closes all of
them. -/
theorem joinOpen_row {row : Row} (plain : ∀ w ∈ row.words, w.isPlain = true) (blanks : row.Blanks)
    {rest after : List Char} (ends : EndsLine rest after) {pending : Option SourceLine}
    {t : List Char} (isLine : IsLine t) (line : Nat) {depth : Int}
    (inside : parenBalance (heldText pending ++ t) = depth)
    (breaks : row.breaksInside depth = true) (closed : depth + nesting row.kinds = 0) :
    ∃ first n, joinOpen pending (textLines line (t ++ (row.chars ++ rest))) =
      ⟨String.ofList (heldText pending ++ t ++ row.joined.chars), first⟩ ::
        joinOpen none (textLines n after) := by
  induction row generalizing pending t line depth with
  | nil =>
    have closes : ¬ 0 < parenBalance (heldText pending ++ t) := by
      rw [inside]
      simp only [Row.kinds_nil, nesting_nil] at closed
      omega
    obtain ⟨n, lines⟩ := ends t isLine line
    refine ⟨(joinLine pending ⟨String.ofList t, line⟩).line, n, ?_⟩
    rw [Row.chars_nil, List.nil_append, lines, joinOpen_closed closes, Row.joined, List.map_nil,
      Row.chars_nil, List.append_nil]
  | cons w r ih =>
    have plainWord : w.word.isPlain = true := plain _ List.mem_cons_self
    have plainRest : ∀ v ∈ Row.words r, v.isPlain = true := fun v member =>
      plain v (List.mem_cons_of_mem _ member)
    have blank : ∀ c ∈ w.gap, Text.isBlank c = true := blanks w List.mem_cons_self
    have blankRest : Row.Blanks r := fun v member => blanks v (List.mem_cons_of_mem _ member)
    rw [Row.breaksInside, Bool.and_eq_true] at breaks
    rw [Row.kinds_cons, nesting_cons, ← Int.add_assoc] at closed
    rw [Row.chars_cons, SpacedWord.chars, Row.joined_cons, SpacedWord.joined]
    by_cases feed : '\n' ∈ w.gap
    · -- The line ends here; what has been joined so far becomes pending.
      have opens : 0 < depth := by simpa [feed] using breaks.1
      obtain ⟨n, lines⟩ := isLine.textLines_feed blank feed (w.word.chars ++ (Row.chars r ++ rest))
        line
      have held : heldText (some (joinLine pending ⟨String.ofList t, line⟩)) =
          heldText pending ++ t ++ [' '] := by
        rw [heldText, toList_joinLine]
      have balance : parenBalance (heldText pending ++ t ++ [' '] ++ w.word.chars) =
          depth + w.word.kind.nesting := by
        rw [parenBalance_append, parenBalance_append, inside, parenBalance_word plainWord,
          parenBalance_blanks (by decide), Int.add_zero]
      obtain ⟨first, k, later⟩ := ih plainRest blankRest (isLine_word plainWord) n
        (held ▸ balance) breaks.2 closed
      refine ⟨first, k, ?_⟩
      rw [List.append_assoc w.gap, List.append_assoc w.gap, List.append_assoc w.word.chars, lines,
        joinOpen_open (inside ▸ opens), later, held, if_pos feed, Row.chars_cons, SpacedWord.chars]
      simp
    · -- The line goes on with the word.
      have longer := isLine.append_word feed plainWord
      have balance : parenBalance (heldText pending ++ (t ++ (w.gap ++ w.word.chars))) =
          depth + w.word.kind.nesting := by
        rw [← List.append_assoc, parenBalance_append, inside, parenBalance_append,
          parenBalance_blanks blank, parenBalance_word plainWord, Int.zero_add]
      obtain ⟨first, k, later⟩ := ih plainRest blankRest longer line balance breaks.2 closed
      refine ⟨first, k, ?_⟩
      rw [List.append_assoc t] at later
      rw [List.append_assoc (w.gap ++ w.word.chars), later, if_neg feed, Row.chars_cons,
        SpacedWord.chars]
      simp

/-- The line of a row ends where the next row begins, or with the body. -/
theorem endsLine_rows {rs : List Row} (joins : ∀ row ∈ rs, row.Joins)
    (starts : ∀ row ∈ rs, ∀ w ∈ row.head?, '\n' ∈ w.gap) {tail : List Char}
    (blank : ∀ c ∈ tail, Text.isBlank c = true) :
    EndsLine (Row.chars rs.flatten ++ tail) (Row.inner rs.flatten ++ tail) := by
  intro t isLine k
  cases rs with
  | nil =>
    obtain ⟨n, none⟩ := textLines_blanks blank [] k
    rw [List.append_nil, textLines_nil] at none
    refine ⟨k, ?_⟩
    rw [List.flatten_nil, Row.chars_nil, Row.inner, List.nil_append, none]
    exact isLine.textLines_end blank k
  | cons next rs =>
    have there := joins next List.mem_cons_self
    obtain ⟨v, r, rfl⟩ := List.exists_cons_of_ne_nil there.nonempty
    have feed : '\n' ∈ v.gap := starts (v :: r) List.mem_cons_self v rfl
    rw [List.flatten_cons, List.cons_append, Row.chars_eq_inner, List.append_assoc]
    exact isLine.textLines_feed (there.blanks v List.mem_cons_self) feed _ k

/-- Rows that start on lines of their own are joined to a line each. -/
theorem joinOpen_rows {rows : List Row} (joins : ∀ row ∈ rows, row.Joins)
    (starts : ∀ row ∈ rows.tail, ∀ w ∈ row.head?, '\n' ∈ w.gap) {tail : List Char}
    (blank : ∀ c ∈ tail, Text.isBlank c = true) (line : Nat) :
    List.Forall₂ (fun row l => l.text.toList = Row.inner row.joined) rows
      (joinOpen none (textLines line (Row.inner rows.flatten ++ tail))) := by
  induction rows generalizing line with
  | nil =>
    obtain ⟨n, none⟩ := textLines_blanks blank [] line
    rw [List.append_nil, textLines_nil] at none
    rw [List.flatten_nil, Row.inner, List.nil_append, none]
    exact .nil
  | cons row rs ih =>
    have here := joins row List.mem_cons_self
    have later (n : Nat) := ih (fun r member => joins r (List.mem_cons_of_mem _ member))
      (fun r member => starts r (List.mem_of_mem_tail member)) n
    have ends := endsLine_rows (fun r member => joins r (List.mem_cons_of_mem _ member)) starts
      blank
    obtain ⟨w, r, rfl⟩ := List.exists_cons_of_ne_nil here.nonempty
    have plainWord : w.word.isPlain = true := here.plain _ List.mem_cons_self
    have plainRest : ∀ v ∈ Row.words r, v.isPlain = true := fun v member =>
      here.plain v (List.mem_cons_of_mem _ member)
    have blankRest : Row.Blanks r := fun v member => here.blanks v (List.mem_cons_of_mem _ member)
    have closed : w.word.kind.nesting + nesting (Row.kinds r) = 0 := by
      rw [← nesting_cons]
      exact here.closed
    have balance : parenBalance (heldText none ++ w.word.chars) = w.word.kind.nesting :=
      parenBalance_word plainWord
    obtain ⟨first, n, joined⟩ := joinOpen_row plainRest blankRest ends (isLine_word plainWord) line
      balance (here.breaks w r rfl) closed
    rw [List.flatten_cons, Row.inner_append here.nonempty, Row.inner, List.append_assoc,
      List.append_assoc, joined]
    refine .cons ?_ (later n)
    rw [String.toList_ofList, heldText, List.nil_append, Row.joined_cons, Row.inner,
      SpacedWord.word_joined]

end TableLines

end ScriptGlue
