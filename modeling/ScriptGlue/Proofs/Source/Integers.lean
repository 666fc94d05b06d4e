import Mathlib.Algebra.Group.Int.Defs
import Mathlib.Algebra.Group.Nat.Defs
import ScriptGlue.Proofs.Source.Numeral
import ScriptGlue.Proofs.Source.Order

/-!
# Integers

An integer is written as a decimal or a hexadecimal number, perhaps with suffix letters behind it.
Such a literal is one token, which has the number for its value if that is within the limit, and
else none. No number of a source has a sign, so a reading of sixty-four bits that knows signs gives
all of them the same values and none a negative one.
-/
namespace ScriptGlue

open Token (Kind)

/-! ### Literals -/

/-- An integer as it is written, where letters behind the number do not count. -/
structure IntegerLiteral where
  size : SizeLiteral
  suffix : List Char
  letters : ∀ c ∈ suffix, Token.isSuffix c = true

theorem Token.isNumberRest_of_isSuffix {c : Char} (letter : isSuffix c = true) :
    isNumberRest c = true := by
  simp only [isSuffix, Bool.or_eq_true, beq_iff_eq] at letter
  rcases letter with ((rfl | rfl) | rfl) | rfl <;> decide

namespace IntegerLiteral

def chars (l : IntegerLiteral) : List Char := l.size.chars ++ l.suffix

def text (l : IntegerLiteral) : String := String.ofList l.chars

def value (l : IntegerLiteral) : Nat := l.size.value

variable (l : IntegerLiteral)

/-- Suffix letters go on with a numeral. -/
theorem isNumeral_text : isNumeral l.text = true := by
  obtain ⟨c, r, whole, digit, rest⟩ := isNumeral_iff.mp l.size.isNumeral_chars
  rw [String.toList_ofList] at whole
  refine isNumeral_iff.mpr ⟨c, r ++ l.suffix, ?_, digit, fun d member => ?_⟩
  · rw [text, String.toList_ofList, chars, whole, List.cons_append]
  · rcases List.mem_append.mp member with inside | behind
    · exact rest d inside
    · exact Token.isNumberRest_of_isSuffix (l.letters d behind)

def word : Word := .number l.text l.isNumeral_text

theorem chars_word : l.word.chars = l.chars := String.toList_ofList

/-- The scanner takes a literal for one token if what follows does not go on with it. -/
theorem scanFrom_append {rest : List Char} (alone : rest.head?.any Token.isNumberRest = false)
    (p : Place) :
    Token.scanFrom p (l.chars ++ rest) =
      (Token.scanFrom (p.after l.chars) rest).push
        ⟨.number l.text, ⟨p.offset, p.offset + l.chars.length, p.line⟩⟩ := by
  have read := Token.scanFrom_word (w := l.word) (s := rest) alone p fun _ => rfl
  rwa [chars_word, Place.offset_after] at read

/-- The value of a literal is the number, unless that is beyond the limit. -/
theorem toNat?_eq :
    (Kind.number l.text).toNat? = if l.value < 2 ^ 63 then some l.value else none := by
  rw [Kind.toNat?, text, String.toList_ofList, chars, SizeLiteral.integer?_append _ l.letters,
    Option.filter_some]
  simp only [decide_eq_true_eq]
  rfl

end IntegerLiteral

/-! ### Signs -/

namespace Token

/-- The integer that digits spell, perhaps behind a sign. -/
def signedDigits? (base : Nat) : List Char → Option Int
  | '+' :: r => (digits? base r).map fun n : Nat => (n : Int)
  | '-' :: r => (digits? base r).map fun n : Nat => -(n : Int)
  | s => (digits? base s).map fun n : Nat => (n : Int)

/-- The value of an integer literal that may have a sign, if sixty-four bits hold it. -/
def signedInteger? (spelling : List Char) : Option Int :=
  let s := (spelling.reverse.dropWhile isSuffix).reverse
  let value :=
    match s with
    | '0' :: 'x' :: r => signedDigits? 16 r
    | '0' :: 'X' :: r => signedDigits? 16 r
    | _ => signedDigits? 10 s
  value.filter fun n => -2 ^ 63 ≤ n ∧ n < 2 ^ 63

/-- The value of a number token that may have a sign. -/
def Kind.toInt? : Kind → Option Int
  | number spelling => signedInteger? spelling.toList
  | _ => none

theorem signedDigits?_eq {s : List Char} (plain : ∀ c ∈ s, isNumberRest c = true) (base : Nat) :
    signedDigits? base s = (digits? base s).map fun n : Nat => (n : Int) := by
  unfold signedDigits?
  split
  · exact absurd (plain '+' List.mem_cons_self) (by decide)
  · exact absurd (plain '-' List.mem_cons_self) (by decide)
  · rfl

/-- Numbers within sixty-three bits are those within sixty-four that have no sign. -/
theorem filter_natCast (value : Option Nat) :
    (value.map fun n : Nat => (n : Int)).filter (fun n => -2 ^ 63 ≤ n ∧ n < 2 ^ 63) =
      (value.filter (· < integerLimit)).map fun n : Nat => (n : Int) := by
  cases value with
  | none => rfl
  | some n =>
    have same : (-2 ^ 63 ≤ (n : Int) ∧ (n : Int) < 2 ^ 63) ↔ n < integerLimit := by
      unfold integerLimit
      omega
    simp only [Option.map_some, Option.filter_some, decide_eq_true_eq, same]
    by_cases small : n < integerLimit
    · rw [if_pos small, if_pos small, Option.map_some]
    · rw [if_neg small, if_neg small, Option.map_none]

/-- Behind the mark of hexadecimal numbers, the digits count in base sixteen. -/
theorem integer?_hex {spelling r : List Char}
    (whole : (spelling.reverse.dropWhile isSuffix).reverse = '0' :: 'x' :: r ∨
      (spelling.reverse.dropWhile isSuffix).reverse = '0' :: 'X' :: r) :
    integer? spelling = (digits? 16 r).filter (· < integerLimit) := by
  rcases whole with whole | whole
  · rw [integer?, whole]
    rfl
  · rw [integer?, whole]
    rfl

/-- Without that mark they count in base ten. -/
theorem integer?_decimal {spelling s : List Char}
    (whole : (spelling.reverse.dropWhile isSuffix).reverse = s)
    (noSmall : ∀ r, s = '0' :: 'x' :: r → False) (noCapital : ∀ r, s = '0' :: 'X' :: r → False) :
    integer? spelling = (digits? 10 s).filter (· < integerLimit) := by
  rw [integer?, whole]
  split
  · exact absurd rfl (noSmall _)
  · exact absurd rfl (noCapital _)
  · rfl

/-- Without a sign both readings give the same. -/
theorem signedInteger?_eq {spelling : List Char} (plain : ∀ c ∈ spelling, isNumberRest c = true) :
    signedInteger? spelling = (integer? spelling).map fun n : Nat => (n : Int) := by
  have kept : ∀ c ∈ (spelling.reverse.dropWhile isSuffix).reverse, isNumberRest c = true := by
    intro c member
    have left := (List.dropWhile_sublist isSuffix).subset (List.mem_reverse.mp member)
    exact plain c (List.mem_reverse.mp left)
  have behind {a b : Char} {r : List Char} (kept : ∀ c ∈ a :: b :: r, isNumberRest c = true) :
      ∀ c ∈ r, isNumberRest c = true := fun c member =>
    kept c (List.mem_cons_of_mem _ (List.mem_cons_of_mem _ member))
  rw [signedInteger?]
  generalize whole : (spelling.reverse.dropWhile isSuffix).reverse = s at kept
  split
  · rw [integer?_hex (.inl whole), signedDigits?_eq (behind kept), filter_natCast]
  · rw [integer?_hex (.inr whole), signedDigits?_eq (behind kept), filter_natCast]
  · rename_i noSmall noCapital
    rw [integer?_decimal whole noSmall noCapital, signedDigits?_eq kept, filter_natCast]

theorem isNumeral_lexeme {c : Char} {r : List Char} {spelling : String}
    (number : (lexeme c r).kind = .number spelling) : isNumeral spelling = true := by
  unfold lexeme at number
  split at number
  · cases number
  · split at number
    · rename_i digit
      cases number
      refine isNumeral_iff.mpr ⟨c, (Cut.span isNumberRest r).piece, ?_, digit, ?_⟩
      · exact String.toList_ofList
      · exact fun d member => Cut.of_mem_span member
    · split at number
      · cases number
      · split at number
        · cases number
        · unfold markKind at number
          split at number <;> cases number

/-- A numeral has no sign. -/
theorem toInt?_number {spelling : String} (numeral : isNumeral spelling = true) :
    (Kind.number spelling).toInt? = (Kind.number spelling).toNat?.map fun n : Nat => (n : Int) := by
  obtain ⟨d, s, whole, digit, rest⟩ := isNumeral_iff.mp numeral
  refine signedInteger?_eq fun c inside => ?_
  rw [whole] at inside
  rcases List.mem_cons.mp inside with rfl | behind
  · simp [isNumberRest, Char.isAlphanum, digit]
  · exact rest c behind

/-- The numbers of a source have no signs, so their values are what they are with signs. -/
theorem toInt?_eq {source : List Char} {firstLine : Nat} {t : Token}
    (member : t ∈ (scan source firstLine).tokens) :
    t.kind.toInt? = t.kind.toNat?.map fun n : Nat => (n : Int) := by
  cases kind : t.kind with
  | number spelling =>
    obtain ⟨c, r, -, same, -⟩ := exists_lexeme member
    exact toInt?_number (isNumeral_lexeme (same ▸ kind))
  | _ => rfl

/-- No token of a source is read as a negative integer. -/
theorem toInt?_eq_some_iff {source : List Char} {firstLine : Nat} {t : Token}
    (member : t ∈ (scan source firstLine).tokens) {n : Nat} :
    t.kind.toInt? = some (n : Int) ↔ t.kind.toNat? = some n := by
  simp only [toInt?_eq member, Option.map_eq_some_iff, Int.ofNat_inj, exists_eq_right]

end Token

end ScriptGlue
