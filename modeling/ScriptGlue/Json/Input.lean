import ScriptGlue.Text.Blank

/-!
# Reading JSON

A strict reader of the JSON data format: first marks, then values. Numbers have no use here and
lose their value. A text with an unpaired surrogate is a text, but has no characters.
-/
namespace ScriptGlue

inductive JsonInput where
  | null
  | bool
  | number
  /-- A text, if it consists of characters. -/
  | text (s : Option String)
  | list (items : List JsonInput)
  /-- Fields in order; names are texts like any other. -/
  | record (fields : List (Option String × JsonInput))
  deriving Repr

namespace JsonInput

/-- A mark or a value without parts. -/
inductive Mark where
  | openList
  | closeList
  | openRecord
  | closeRecord
  | colon
  | comma
  | null
  | bool
  | number
  | text (s : Option String)
  deriving DecidableEq, Repr

/-- A part of a text: a character, or an escaped half of one. -/
inductive TextPart where
  | char (c : Char)
  | surrogate (unit : Nat)
  deriving DecidableEq, Repr

def hexValue? (c : Char) : Option Nat :=
  if '0' ≤ c ∧ c ≤ '9' then some (c.toNat - 48)
  else if 'a' ≤ c ∧ c ≤ 'f' then some (c.toNat - 87)
  else if 'A' ≤ c ∧ c ≤ 'F' then some (c.toNat - 55)
  else none

def escapedUnit? (a b c d : Char) : Option TextPart := do
  let n := ((← hexValue? a) * 16 + (← hexValue? b)) * 256 + (← hexValue? c) * 16 + (← hexValue? d)
  return if 0xD800 ≤ n ∧ n < 0xE000 then .surrogate n else .char (Char.ofNat n)

def escaped? : Char → Option Char
  | '"' => some '"'
  | '\\' => some '\\'
  | '/' => some '/'
  | 'b' => some '\x08'
  | 'f' => some '\x0c'
  | 'n' => some '\n'
  | 'r' => some '\r'
  | 't' => some '\t'
  | _ => none

def withPart (part : Option TextPart) (text : Option (List TextPart × List Char)) :
    Option (List TextPart × List Char) := do
  let part ← part
  let (parts, rest) ← text
  return (part :: parts, rest)

/-- The parts of a text after its opening quote, and what follows its closing quote. -/
def textParts : List Char → Option (List TextPart × List Char)
  | [] => none
  | '"' :: r => some ([], r)
  | '\\' :: 'u' :: a :: b :: c :: d :: r => withPart (escapedUnit? a b c d) (textParts r)
  | '\\' :: c :: r => withPart ((escaped? c).map .char) (textParts r)
  | c :: r => if c.toNat < 32 then none else withPart (some (.char c)) (textParts r)

/-- The characters of a text, if every half of a character meets its other half. -/
def joinParts : List TextPart → Option (List Char)
  | [] => some []
  | .char c :: r => (joinParts r).map (c :: ·)
  | .surrogate hi :: .surrogate lo :: r =>
    if hi < 0xDC00 ∧ 0xDC00 ≤ lo then
      (joinParts r).map (Char.ofNat (0x10000 + (hi - 0xD800) * 0x400 + (lo - 0xDC00)) :: ·)
    else none
  | .surrogate _ :: _ => none

/-- What follows at least one digit. -/
def afterDigits? : List Char → Option (List Char)
  | [] => none
  | c :: r => if c.isDigit then some (r.dropWhile Char.isDigit) else none

/-- What follows an exponent, if there is one. -/
def afterExponent? : List Char → Option (List Char)
  | c :: r =>
    if c = 'e' ∨ c = 'E' then
      match r with
      | s :: r' => if s = '+' ∨ s = '-' then afterDigits? r' else afterDigits? r
      | [] => none
    else some (c :: r)
  | [] => some []

/-- What follows the places of a number, if it has any. -/
def afterFraction? : List Char → Option (List Char)
  | '.' :: r => (afterDigits? r).bind afterExponent?
  | r => afterExponent? r

/-- What follows a number without its sign. A number does not start with a needless zero. -/
def afterNumber? : List Char → Option (List Char)
  | '0' :: c :: r => if c.isDigit then none else afterFraction? (c :: r)
  | r => (afterDigits? r).bind afterFraction?

def punctuation? : Char → Option Mark
  | '[' => some .openList
  | ']' => some .closeList
  | '{' => some .openRecord
  | '}' => some .closeRecord
  | ':' => some .colon
  | ',' => some .comma
  | _ => none

def word? : List Char → Option (Mark × List Char)
  | 'n' :: 'u' :: 'l' :: 'l' :: r => some (.null, r)
  | 't' :: 'r' :: 'u' :: 'e' :: r => some (.bool, r)
  | 'f' :: 'a' :: 'l' :: 's' :: 'e' :: r => some (.bool, r)
  | _ => none

/-- The mark that starts with `c`, and what follows it. -/
def mark? (c : Char) (r : List Char) : Option (Mark × List Char) :=
  match punctuation? c with
  | some m => some (m, r)
  | none =>
    if c = '"' then (textParts r).map fun (parts, rest) =>
      (.text ((joinParts parts).map String.ofList), rest)
    else if c = '-' then (afterNumber? r).map (.number, ·)
    else if c.isDigit then (afterNumber? (c :: r)).map (.number, ·)
    else word? (c :: r)

def isGap (c : Char) : Bool := c == ' ' || c == '\n' || c == '\t' || c == '\r'

theorem textParts_rest_lt {s : List Char} {parts : List TextPart} {rest : List Char}
    (h : textParts s = some (parts, rest)) : rest.length < s.length := by
  fun_induction textParts s generalizing parts with
  | case1 => cases h
  | case2 r => cases h; exact Nat.lt_succ_self _
  | case3 a b c d r ih =>
    simp only [withPart, bind, Option.bind_eq_some_iff] at h
    obtain ⟨_, _, ⟨_, rest'⟩, hr, he⟩ := h
    cases he
    have : rest'.length < r.length := ih hr
    simp only [List.length_cons]
    omega
  | case4 c r _ ih =>
    simp only [withPart, bind, Option.bind_eq_some_iff] at h
    obtain ⟨_, _, ⟨_, rest'⟩, hr, he⟩ := h
    cases he
    have : rest'.length < r.length := ih hr
    simp only [List.length_cons]
    omega
  | case5 => cases h
  | case6 c r _ _ _ _ ih =>
    simp only [withPart, bind, Option.bind_eq_some_iff] at h
    obtain ⟨_, _, ⟨_, rest'⟩, hr, he⟩ := h
    cases he
    have : rest'.length < r.length := ih hr
    simp only [List.length_cons]
    omega

theorem afterDigits?_lt {s r : List Char} (h : afterDigits? s = some r) : r.length < s.length := by
  unfold afterDigits? at h
  split at h
  · cases h
  · split at h
    · cases h
      exact Nat.lt_succ_of_le (Text.length_dropWhile_le _ _)
    · cases h

theorem afterExponent?_le {s r : List Char} (h : afterExponent? s = some r) :
    r.length ≤ s.length := by
  unfold afterExponent? at h
  split at h
  · split at h
    · split at h
      · split at h <;>
          (have shorter := afterDigits?_lt h
           simp only [List.length_cons] at shorter ⊢
           omega)
      · cases h
    · cases h; exact Nat.le_refl _
  · cases h; exact Nat.le_refl _

theorem afterFraction?_le {s r : List Char} (h : afterFraction? s = some r) :
    r.length ≤ s.length := by
  unfold afterFraction? at h
  split at h
  · obtain ⟨t, ht, he⟩ := Option.bind_eq_some_iff.1 h
    have := afterDigits?_lt ht
    have := afterExponent?_le he
    simp only [List.length_cons]
    omega
  · exact afterExponent?_le h

theorem afterNumber?_lt {s r : List Char} (h : afterNumber? s = some r) : r.length < s.length := by
  unfold afterNumber? at h
  split at h
  · split at h
    · cases h
    · have := afterFraction?_le h
      simp only [List.length_cons] at this ⊢
      omega
  · obtain ⟨t, ht, he⟩ := Option.bind_eq_some_iff.1 h
    have := afterDigits?_lt ht
    have := afterFraction?_le he
    omega

theorem word?_rest_lt {s rest : List Char} {m : Mark} (h : word? s = some (m, rest)) :
    rest.length < s.length := by
  unfold word? at h
  split at h
  · cases h; simp only [List.length_cons]; omega
  · cases h; simp only [List.length_cons]; omega
  · cases h; simp only [List.length_cons]; omega
  · cases h

theorem mark?_rest_lt {c : Char} {r rest : List Char} {m : Mark}
    (h : mark? c r = some (m, rest)) : rest.length < (c :: r).length := by
  unfold mark? at h
  split at h
  · cases h
    exact Nat.lt_succ_self _
  · split at h
    · obtain ⟨⟨parts, t⟩, ht, he⟩ := Option.map_eq_some_iff.1 h
      cases he
      exact Nat.lt_succ_of_lt (textParts_rest_lt ht)
    · split at h
      · obtain ⟨t, ht, he⟩ := Option.map_eq_some_iff.1 h
        cases he
        exact Nat.lt_succ_of_lt (afterNumber?_lt ht)
      · split at h
        · obtain ⟨t, ht, he⟩ := Option.map_eq_some_iff.1 h
          cases he
          exact afterNumber?_lt ht
        · exact word?_rest_lt h

def marks? (s : List Char) : Option (List Mark) :=
  match _h : s.dropWhile isGap with
  | [] => some []
  | c :: r =>
    match _hm : mark? c r with
    | none => none
    | some (m, rest) => (marks? rest).map (m :: ·)
termination_by s.length
decreasing_by
  have h1 := mark?_rest_lt _hm
  have h2 := Text.length_dropWhile_le isGap s
  rw [_h] at h2
  omega

/-- A list or record whose end has not been met. Its members stand last first. -/
inductive Frame where
  | list (items : List JsonInput)
  | record (fields : List (Option String × JsonInput)) (key : Option String)

mutual

/-- The value that starts here, inside the given lists and records. -/
def value? (stack : List Frame) (ms : List Mark) : Option JsonInput :=
  match ms with
  | .null :: r => after? .null stack r
  | .bool :: r => after? .bool stack r
  | .number :: r => after? .number stack r
  | .text s :: r => after? (.text s) stack r
  | .openList :: .closeList :: r => after? (.list []) stack r
  | .openList :: r => value? (.list [] :: stack) r
  | .openRecord :: .closeRecord :: r => after? (.record []) stack r
  | .openRecord :: .text key :: .colon :: r => value? (.record [] key :: stack) r
  | _ => none
termination_by ms.length

/-- What a value is part of, given the marks after it. -/
def after? (v : JsonInput) (stack : List Frame) (ms : List Mark) : Option JsonInput :=
  match stack, ms with
  | [], [] => some v
  | .list items :: outer, .comma :: r => value? (.list (v :: items) :: outer) r
  | .list items :: outer, .closeList :: r => after? (.list (v :: items).reverse) outer r
  | .record fields key :: outer, .comma :: .text next :: .colon :: r =>
    value? (.record ((key, v) :: fields) next :: outer) r
  | .record fields key :: outer, .closeRecord :: r =>
    after? (.record ((key, v) :: fields).reverse) outer r
  | _, _ => none
termination_by ms.length

end

def read? (s : String) : Option JsonInput := (marks? s.toList).bind (value? [])

end JsonInput

end ScriptGlue
