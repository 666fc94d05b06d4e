import ScriptGlue.Proofs.Source.Word

/-!
# Numerals

The decimal and the hexadecimal spellings of a number are numerals, and the value of such a numeral
is the number as long as it is within the limit.
-/
namespace ScriptGlue

/-- A decimal or hexadecimal spelling of a number. -/
inductive SizeLiteral where
  | decimal (n : Nat)
  /-- Digits behind `0x` or `0X`, each perhaps a capital. -/
  | hex (capital : Bool) (first : Fin 16 × Bool) (rest : List (Fin 16 × Bool))
  deriving DecidableEq, Repr

namespace SizeLiteral

def hexDigit (d : Fin 16 × Bool) : Char :=
  (if d.2 then "0123456789ABCDEF" else "0123456789abcdef").toList.getD d.1 '0'

def chars : SizeLiteral → List Char
  | decimal n => n.repr.toList
  | hex capital first rest =>
    '0' :: (if capital then 'X' else 'x') :: (first :: rest).map hexDigit

def value : SizeLiteral → Nat
  | decimal n => n
  | hex _ first rest => (first :: rest).foldl (fun n d => n * 16 + d.1.val) 0

end SizeLiteral

/-! ### Digits -/

namespace Token

theorem digitValue?_of_isDigit {c : Char} (digit : c.isDigit = true) :
    digitValue? 10 c = some (c.toNat - '0'.toNat) := by
  have digits : ∀ d ∈ "0123456789".toList, digitValue? 10 d = some (d.toNat - '0'.toNat) := by
    decide
  exact digits c (Text.digit_mem digit)

theorem isSuffix_of_isDigit {c : Char} (digit : c.isDigit = true) : isSuffix c = false := by
  have digits : ∀ d ∈ "0123456789".toList, isSuffix d = false := by decide
  exact digits c (Text.digit_mem digit)

/-- Decimal digits are read as the library reads them. -/
theorem digits_foldlM {s : List Char} (all : ∀ c ∈ s, c.isDigit = true) (n : Nat) :
    s.foldlM (fun acc c => (digitValue? 10 c).map (acc * 10 + ·)) n =
      some (Nat.ofDigitChars 10 s n) := by
  induction s generalizing n with
  | nil => rfl
  | cons c r ih =>
    have rest := ih fun d member => all d (List.mem_cons_of_mem _ member)
    rw [List.foldlM_cons, digitValue?_of_isDigit (all c List.mem_cons_self), Option.map_some,
      Option.bind_eq_bind, Option.bind_some, rest, Nat.ofDigitChars_cons, Nat.mul_comm]

/-- Decimal digits are read back. -/
theorem digits?_toDigits (n : Nat) : digits? 10 (Nat.toDigits 10 n) = some n := by
  have all : ∀ c ∈ Nat.toDigits 10 n, c.isDigit = true := fun c member =>
    Nat.isDigit_of_mem_toDigits (by decide) (by decide) member
  have nonempty : ¬ (Nat.toDigits 10 n).isEmpty = true := by simp [Nat.toDigits_ne_nil]
  rw [digits?, if_neg nonempty, digits_foldlM all, Nat.ofDigitChars_ten_toDigits]

theorem digitValue?_hexDigit (d : Fin 16 × Bool) :
    digitValue? 16 (SizeLiteral.hexDigit d) = some d.1.val := by
  have all : ∀ (n : Fin 16) (capital : Bool),
      digitValue? 16 (SizeLiteral.hexDigit (n, capital)) = some n.val := by
    decide
  exact all d.1 d.2

theorem isAlphanum_hexDigit (d : Fin 16 × Bool) :
    (SizeLiteral.hexDigit d).isAlphanum = true ∧ isSuffix (SizeLiteral.hexDigit d) = false := by
  have all : ∀ (n : Fin 16) (capital : Bool),
      (SizeLiteral.hexDigit (n, capital)).isAlphanum = true ∧
        isSuffix (SizeLiteral.hexDigit (n, capital)) = false := by
    decide
  exact all d.1 d.2

/-- Hexadecimal digits are read in either case. -/
theorem hexDigits_foldlM (ds : List (Fin 16 × Bool)) (n : Nat) :
    (ds.map SizeLiteral.hexDigit).foldlM
        (fun acc c => (digitValue? 16 c).map (acc * 16 + ·)) n =
      some (ds.foldl (fun n d => n * 16 + d.1.val) n) := by
  induction ds generalizing n with
  | nil => rfl
  | cons d r ih =>
    rw [List.map_cons, List.foldlM_cons, digitValue?_hexDigit, Option.map_some,
      Option.bind_eq_bind, Option.bind_some, ih, List.foldl_cons]

/-- Suffix letters are dropped, and no digit is dropped as one. -/
theorem dropSuffix_eq {s suffix : List Char} (last : ∀ c ∈ s.getLast?, isSuffix c = false)
    (letters : ∀ c ∈ suffix, isSuffix c = true) :
    ((s ++ suffix).reverse.dropWhile isSuffix).reverse = s := by
  have back : ∀ c ∈ suffix.reverse, isSuffix c = true := fun c member =>
    letters c (List.mem_reverse.mp member)
  rw [List.reverse_append, List.dropWhile_append_of_pos back]
  cases whole : s.reverse with
  | nil => rw [List.reverse_eq_nil_iff.mp whole]; rfl
  | cons c r =>
    have kept : ¬ isSuffix c = true := by
      simp [last c (by rw [List.getLast?_eq_head?_reverse, whole]; rfl)]
    rw [List.dropWhile_cons_of_neg kept, ← whole, List.reverse_reverse]

end Token

namespace SizeLiteral

/-- A number is read back, whatever suffix letters stand behind it, unless it is beyond the limit. -/
theorem integer?_append (l : SizeLiteral) {suffix : List Char}
    (letters : ∀ c ∈ suffix, Token.isSuffix c = true) :
    Token.integer? (l.chars ++ suffix) = (some l.value).filter (· < Token.integerLimit) := by
  cases l with
  | decimal n =>
    have all : ∀ c ∈ Nat.toDigits 10 n, c.isDigit = true := fun c member =>
      Nat.isDigit_of_mem_toDigits (by decide) (by decide) member
    have kept : ∀ c ∈ (Nat.toDigits 10 n).getLast?, Token.isSuffix c = false := fun c last =>
      Token.isSuffix_of_isDigit (all c (List.mem_of_getLast? last))
    rw [Token.integer?, chars, Nat.toList_repr, Token.dropSuffix_eq kept letters]
    split
    · rename_i r whole
      exact absurd (all 'x' (by simp [whole])) (by decide)
    · rename_i r whole
      exact absurd (all 'X' (by simp [whole])) (by decide)
    · rw [Token.digits?_toDigits]
      rfl
  | hex capital first rest =>
    have digits : Token.digits? 16 ((first :: rest).map hexDigit) =
        some (hex capital first rest).value := by
      rw [Token.digits?, if_neg (by simp), Token.hexDigits_foldlM]
      rfl
    have kept : ∀ c ∈ (hex capital first rest).chars.getLast?, Token.isSuffix c = false := by
      intro c last
      rw [chars, List.getLast?_cons_cons, List.map_cons, List.getLast?_cons_cons] at last
      have member := List.mem_of_getLast? last
      rw [← List.map_cons] at member
      obtain ⟨d, -, rfl⟩ := List.mem_map.mp member
      exact (Token.isAlphanum_hexDigit d).2
    rw [Token.integer?, Token.dropSuffix_eq kept letters, chars]
    cases capital with
    | false => simp only [Bool.false_eq_true, if_false, digits]
    | true => simp only [if_true, digits]

/-- A size within the limit is read back. -/
theorem integer?_chars (l : SizeLiteral) (bound : l.value < Token.integerLimit) :
    Token.integer? l.chars = some l.value := by
  have none : ∀ c ∈ ([] : List Char), Token.isSuffix c = true := by simp
  have read := l.integer?_append none
  rwa [List.append_nil, Option.filter_some, if_pos (decide_eq_true bound)] at read

/-- Both spellings are numerals. -/
theorem isNumeral_chars (l : SizeLiteral) : isNumeral (String.ofList l.chars) = true := by
  rw [isNumeral_iff, String.toList_ofList]
  cases l with
  | decimal n =>
    have all : ∀ c ∈ Nat.toDigits 10 n, c.isDigit = true := fun c member =>
      Nat.isDigit_of_mem_toDigits (by decide) (by decide) member
    obtain ⟨c, r, whole⟩ := List.exists_cons_of_ne_nil (Nat.toDigits_ne_nil (n := n) (b := 10))
    rw [chars, Nat.toList_repr, whole]
    rw [whole] at all
    refine ⟨c, r, rfl, all c List.mem_cons_self, fun d member => ?_⟩
    simp [Token.isNumberRest, Char.isAlphanum, all d (List.mem_cons_of_mem _ member)]
  | hex capital first rest =>
    refine ⟨'0', _, rfl, by decide, fun c member => ?_⟩
    rcases List.mem_cons.mp member with rfl | member
    · cases capital <;> decide
    · obtain ⟨d, -, rfl⟩ := List.mem_map.mp member
      simp [Token.isNumberRest, (Token.isAlphanum_hexDigit d).1]

def word (l : SizeLiteral) : Word := .number (String.ofList l.chars) l.isNumeral_chars

theorem toNat?_word (l : SizeLiteral) (bound : l.value < Token.integerLimit) :
    l.word.kind.toNat? = some l.value := by
  rw [word, Word.kind, Token.Kind.toNat?, String.toList_ofList, integer?_chars l bound]

end SizeLiteral

end ScriptGlue
