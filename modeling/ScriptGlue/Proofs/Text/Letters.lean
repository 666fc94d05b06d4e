import ScriptGlue.Text.Blank
import ScriptGlue.Text.Letter

/-!
# Kinds of characters

No character counts twice: blanks belong to no identifier, and digits start none.
-/
namespace ScriptGlue.Text

/-- What holds of all members of a list of characters is decided member by member. -/
instance decidableAllChars {p : Char → Prop} [DecidablePred p] (s : List Char) :
    Decidable (∀ c ∈ s, p c) :=
  List.decidableBAll p s

/-- What holds of a character that there may be is decided on that one. -/
instance decidableOptionChar {p : Char → Prop} [DecidablePred p] (o : Option Char) :
    Decidable (∀ c ∈ o, p c) :=
  match o with
  | none => .isTrue fun _ member => nomatch member
  | some c => decidable_of_iff (p c) ⟨fun here _ same => Option.some.inj same ▸ here,
      fun all => all c rfl⟩

def blankPoints : List Nat :=
  [9, 10, 11, 12, 13, 32, 0x85, 0xA0, 0x1680, 0x2000, 0x2001, 0x2002, 0x2003, 0x2004, 0x2005,
    0x2006, 0x2007, 0x2008, 0x2009, 0x200A, 0x2028, 0x2029, 0x202F, 0x205F, 0x3000]

theorem toNat_mem_blankPoints {c : Char} (blank : isBlank c = true) : c.toNat ∈ blankPoints := by
  simp only [isBlank, Bool.or_eq_true, Bool.and_eq_true, decide_eq_true_eq, beq_iff_eq] at blank
  simp only [blankPoints, List.mem_cons, List.not_mem_nil, or_false]
  omega

theorem isIdentRest_of_isBlank {c : Char} (blank : isBlank c = true) : isIdentRest c = false := by
  have points : ∀ n ∈ blankPoints, isIdentRest (Char.ofNat n) = false := by decide +kernel
  have here := points c.toNat (toNat_mem_blankPoints blank)
  rwa [Char.ofNat_toNat] at here

theorem isIdentRest_of_isIdentStart {c : Char} (start : isIdentStart c = true) :
    isIdentRest c = true := by
  simp only [isIdentStart, isIdentRest, isAlphanumeric, Bool.or_eq_true] at start ⊢
  rcases start with letter | underscore
  · exact Or.inl (Or.inl letter)
  · exact Or.inr underscore

theorem isBlank_of_isIdentRest {c : Char} (rest : isIdentRest c = true) : isBlank c = false := by
  cases blank : isBlank c with
  | false => rfl
  | true => rw [isIdentRest_of_isBlank blank] at rest; cases rest

theorem isIdentRest_of_isAlphanum {c : Char} (ascii : c.isAlphanum = true) :
    isIdentRest c = true := by
  simp only [Char.isAlphanum, Bool.or_eq_true] at ascii
  rcases ascii with alpha | digit
  · simp [isIdentRest, isAlphanumeric, isLetter, alpha]
  · simp [isIdentRest, isAlphanumeric, isNumber, digit]

theorem isIdentRest_of_isDigit {c : Char} (digit : c.isDigit = true) : isIdentRest c = true :=
  isIdentRest_of_isAlphanum (by simp [Char.isAlphanum, digit])

theorem digit_mem {c : Char} (digit : c.isDigit = true) : c ∈ "0123456789".toList := by
  simp only [Char.isDigit, Bool.and_eq_true, decide_eq_true_eq] at digit
  have bounds : 48 ≤ c.toNat ∧ c.toNat ≤ 57 := digit
  have points : ∀ n ∈ List.range 58, 48 ≤ n → Char.ofNat n ∈ "0123456789".toList := by decide
  have here := points c.toNat (List.mem_range.mpr (by omega)) bounds.1
  rwa [Char.ofNat_toNat] at here

theorem isIdentStart_of_isDigit {c : Char} (digit : c.isDigit = true) : isIdentStart c = false := by
  have digits : ∀ d ∈ "0123456789".toList, isIdentStart d = false := by decide
  exact digits c (digit_mem digit)

/-- Names with different numbers behind them are different. -/
theorem append_repr_inj {stem : String} {m n : Nat} (same : stem ++ m.repr = stem ++ n.repr) :
    m = n := by
  have digits : Nat.toDigits 10 m = Nat.toDigits 10 n :=
    String.ofList_injective ((String.append_right_inj stem).mp same)
  have read (n : Nat) : Nat.ofDigitChars 10 (Nat.toDigits 10 n) 0 = n :=
    Nat.ofDigitChars_toDigits (by decide) (by decide)
  rw [← read m, digits, read n]

end ScriptGlue.Text
