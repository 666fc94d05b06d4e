import Mathlib.Data.List.Forall2
import ScriptGlue.Proofs.Hook.Enumeration

/-!
# Reading back the signature array

An array of signatures is printed as words, row by row. A row has a key in quotes or a null pointer
in its place; a row of the latter kind ends the array or keeps a place free, and takes no number.
Reading the words gives the rows with a key, in order.
-/
namespace ScriptGlue.Hook

open Token (Kind)

/-! ### The printed array -/

/-- A key as it may stand in quotes without escapes. -/
structure RowKey where
  text : String
  plain : ∀ c ∈ text.toList, c ≠ '"' ∧ c ≠ '\\' ∧ c ≠ '\n'

structure CountLiteral where
  spelling : String
  valid : isNumeral spelling = true
  value : Nat
  reads : Token.integer? spelling.toList = some value

structure ArrayRow where
  /-- Without a key, the row starts with a null pointer. -/
  key : Option RowKey
  returns : Identifier
  count : CountLiteral
  params : List Identifier
  /-- A comma stands behind the last parameter. -/
  trailing : Bool

def RowKey.word (key : RowKey) : Word := .literal key.text.toList (isQuotable_of_plain key.plain)

def CountLiteral.word (count : CountLiteral) : Word := .number count.spelling count.valid

def CountLiteral.ofSize (size : SizeLiteral) (bound : size.value < Token.integerLimit) :
    CountLiteral where
  spelling := String.ofList size.chars
  valid := size.isNumeral_chars
  value := size.value
  reads := by rw [String.toList_ofList, size.integer?_chars bound]

namespace ArrayRow

/-- The word in the place of the key. -/
def keyWord (row : ArrayRow) : Word :=
  match row.key with
  | some key => key.word
  | none => .ident "nullptr" (by decide)

/-- The words of a row behind its opening brace. -/
def inside (row : ArrayRow) : List Word :=
  [row.keyWord, .comma, row.returns.word, .comma, row.count.word, .comma, .openBrace] ++
    Word.listed row.trailing (row.params.map fun p => [p.word]) ++ [.closeBrace, .closeBrace]

def words (row : ArrayRow) : List Word := .openBrace :: row.inside

def signature? (row : ArrayRow) (line : Nat) : Option Signature :=
  row.key.map fun key =>
    ⟨key.text, ReturnShape.ofCode row.returns.text, row.count.value,
      row.params.map fun p => ParamShape.ofCode p.text, line⟩

/-- A signature that is read from a row, wherever the row stands. -/
def States (row : ArrayRow) (s : Signature) : Prop := ∃ line, row.signature? line = some s

end ArrayRow

def arrayHead (name : String) : List Kind :=
  [.ident name, .openBracket, .closeBracket, .equals, .openBrace]

def arrayOpening : List Word :=
  [.ident signatureArray (by decide), .openBracket, .closeBracket, .equals, .openBrace]

def arrayWords (rows : List ArrayRow) (trailing : Bool) : List Word :=
  Word.block arrayOpening trailing (rows.map (·.words))

/-! ### Finding it -/

/-- The first head of an array is found. -/
theorem afterArrayHead_skip {name : String} {lead r : List Token} {a b c d e : Token}
    (head : [a, b, c, d, e].map (·.kind) = arrayHead name)
    (first : ¬ arrayHead name <:+: lead.map (·.kind)) :
    afterArrayHead name (lead ++ a :: b :: c :: d :: e :: r) = some r := by
  simp only [arrayHead, List.map_cons, List.map_nil, List.cons.injEq, and_true] at head
  obtain ⟨isName, isOpen, isClose, isEquals, isBrace⟩ := head
  induction lead with
  | nil =>
    rw [List.nil_append, afterArrayHead, if_pos]
    exact ⟨Token.isNamed_iff.mpr isName, isOpen, isClose, isEquals, isBrace⟩
  | cons t l ih =>
    have rest := ih fun inside => first (inside.trans (List.suffix_cons _ _).isInfix)
    -- a head that starts in the text before cannot end in the head itself, whose first word is a
    -- name where the former goes on with marks
    match l with
    | [] =>
      simp only [List.cons_append, List.nil_append] at rest ⊢
      rw [afterArrayHead, if_neg, rest]
      simp [isName]
    | [x] =>
      simp only [List.cons_append, List.nil_append] at rest ⊢
      rw [afterArrayHead, if_neg, rest]
      simp [isName]
    | [x, y] =>
      simp only [List.cons_append, List.nil_append] at rest ⊢
      rw [afterArrayHead, if_neg, rest]
      simp [isName]
    | [x, y, z] =>
      simp only [List.cons_append, List.nil_append] at rest ⊢
      rw [afterArrayHead, if_neg, rest]
      simp [isName]
    | w :: x :: y :: z :: l =>
      simp only [List.cons_append] at rest ⊢
      rw [afterArrayHead, if_neg, rest]
      rintro ⟨isFirst, isSecond, isThird, isFourth, isFifth⟩
      rw [Token.isNamed_iff] at isFirst
      refine first ⟨[], l.map (·.kind), ?_⟩
      simp [arrayHead, isFirst, isSecond, isThird, isFourth, isFifth]

/-! ### Reading rows -/

variable {r : List Token} {stop : Span}

theorem paramShapes_end {close : Token} (isClose : close.kind = .closeBrace) :
    paramShapes stop (close :: r) = .ok ([], r) := by
  simp only [paramShapes, isClose]

theorem paramShapes_comma {comma : Token} (isComma : comma.kind = .comma) :
    paramShapes stop (comma :: r) = paramShapes stop r := by
  simp only [paramShapes, isComma]

theorem paramShapes_name {t : Token} {code : String} (isCode : t.kind = .ident code)
    {shapes : List ParamShape} {rest : List Token}
    (later : paramShapes stop r = .ok (shapes, rest)) :
    paramShapes stop (t :: r) = .ok (ParamShape.ofCode code :: shapes, rest) := by
  simp only [paramShapes, isCode, later]
  rfl

/-- The printed parameter codes are read. -/
theorem paramShapes_listed (trailing : Bool) (params : List Identifier) {ts : List Token}
    (spelled : ts.map (·.kind) =
      (Word.listed trailing (params.map fun p => [p.word])).map (·.kind)) {close : Token}
    (isClose : close.kind = .closeBrace) (rest : List Token) :
    paramShapes stop (ts ++ close :: rest) =
      .ok (params.map fun p => ParamShape.ofCode p.text, rest) := by
  induction params generalizing ts with
  | nil =>
    obtain rfl := List.map_eq_nil_iff.mp spelled
    exact paramShapes_end isClose
  | cons p l ih =>
    obtain ⟨tp, tc, tr, rfl, own, separator, back⟩ := Word.tokens_listed_cons spelled
    obtain ⟨t, rfl, isCode⟩ := List.map_eq_singleton_iff.mp own
    have separated : paramShapes stop (tc ++ (tr ++ close :: rest)) =
        paramShapes stop (tr ++ close :: rest) := by
      rw [Word.separator] at separator
      split at separator
      · obtain ⟨comma, rfl, isComma⟩ := List.map_eq_singleton_iff.mp separator
        exact paramShapes_comma isComma
      · obtain rfl := List.map_eq_nil_iff.mp separator
        rfl
    rw [List.append_assoc, List.append_assoc, List.singleton_append, List.map_cons]
    exact paramShapes_name isCode (separated.trans (ih back))

theorem returnShape_eq {t : Token} {code : String} (isCode : t.kind = .ident code) :
    returnShape ⟨t :: r, stop⟩ = .ok (ReturnShape.ofCode code, ⟨r, stop⟩) := by
  have named : t.name? = some code := Token.name?_eq_some_iff.mpr isCode
  rw [returnShape, Reader.bind_eq (Reader.advance_eq t r stop), named]
  rfl

theorem paramCount_eq {t : Token} {n : Nat} (reads : t.kind.toNat? = some n) :
    paramCount ⟨t :: r, stop⟩ = .ok (n, ⟨r, stop⟩) := by
  rw [paramCount, Reader.bind_eq (Reader.advance_eq t r stop), reads]
  rfl

theorem returnShape_ok_iff {s s' : Token.Stream} {shape : ReturnShape} :
    returnShape s = .ok (shape, s') ↔
      ∃ t code, s = s'.push t ∧ t.kind = .ident code ∧ ReturnShape.ofCode code = shape := by
  constructor
  · intro done
    obtain ⟨t, s1, taken, done⟩ := Reader.bind_ok done
    cases named : t.name? with
    | none =>
      rw [named] at done
      cases done
    | some code =>
      rw [named] at done
      cases done
      have isCode := Token.name?_eq_some_iff.mp named
      exact ⟨t, code, (Reader.advance_ok_iff (by simp [isCode])).mp taken, isCode, rfl⟩
  · rintro ⟨t, code, rfl, isCode, rfl⟩
    exact returnShape_eq isCode

theorem paramCount_ok_iff {s s' : Token.Stream} {n : Nat} :
    paramCount s = .ok (n, s') ↔ ∃ t, s = s'.push t ∧ t.kind.toNat? = some n := by
  constructor
  · intro done
    obtain ⟨t, s1, taken, done⟩ := Reader.bind_ok done
    cases reads : t.kind.toNat? with
    | none =>
      rw [reads] at done
      cases done
    | some m =>
      rw [reads] at done
      cases done
      have solid : t.kind ≠ .stop := by
        intro stop
        rw [stop] at reads
        cases reads
      exact ⟨t, (Reader.advance_ok_iff solid).mp taken, reads⟩
  · rintro ⟨t, rfl, reads⟩
    exact paramCount_eq reads

/-- The key of a row is read, and a null pointer gives none. -/
theorem literal?_keyWord (row : ArrayRow) : row.keyWord.kind.literal? = row.key.map (·.text) := by
  unfold ArrayRow.keyWord
  cases row.key with
  | none => rfl
  | some key =>
    simp only [RowKey.word, Word.kind, Kind.literal?, unquoted_of_plain key.plain,
      String.ofList_toList, Option.map_some]

theorem toNat?_count (count : CountLiteral) : count.word.kind.toNat? = some count.value :=
  count.reads

/-- A printed row is read, with the comma behind it if there is one. -/
theorem row_inside {row : ArrayRow} {ts : List Token}
    (spelled : ts.map (·.kind) = row.inside.map (·.kind)) (line : Nat) {t : Token}
    {s : Token.Stream} (comma : Reader.skip .comma ⟨t :: r, stop⟩ = .ok ((), s)) :
    Hook.row line ⟨ts ++ t :: r, stop⟩ = .ok (row.signature? line, s) := by
  rw [ArrayRow.inside, List.map_append, List.map_append] at spelled
  obtain ⟨thp, te, rfl, front, ends⟩ := List.map_eq_append_iff.mp spelled
  obtain ⟨th, tp, rfl, head, params⟩ := List.map_eq_append_iff.mp front
  obtain ⟨key, th, rfl, isKey, head⟩ := List.map_eq_cons_iff.mp head
  obtain ⟨comma1, th, rfl, isComma1, head⟩ := List.map_eq_cons_iff.mp head
  obtain ⟨code, th, rfl, isCode, head⟩ := List.map_eq_cons_iff.mp head
  obtain ⟨comma2, th, rfl, isComma2, head⟩ := List.map_eq_cons_iff.mp head
  obtain ⟨count, th, rfl, isCount, head⟩ := List.map_eq_cons_iff.mp head
  obtain ⟨comma3, th, rfl, isComma3, head⟩ := List.map_eq_cons_iff.mp head
  obtain ⟨brace, th, rfl, isBrace, head⟩ := List.map_eq_cons_iff.mp head
  obtain rfl := List.map_eq_nil_iff.mp head
  obtain ⟨close, te, rfl, isClose, ends⟩ := List.map_eq_cons_iff.mp ends
  obtain ⟨last, te, rfl, isLast, ends⟩ := List.map_eq_cons_iff.mp ends
  obtain rfl := List.map_eq_nil_iff.mp ends
  replace isComma1 : comma1.kind = .comma := isComma1
  replace isCode : code.kind = .ident row.returns.text := isCode
  replace isComma2 : comma2.kind = .comma := isComma2
  replace isComma3 : comma3.kind = .comma := isComma3
  replace isBrace : brace.kind = .openBrace := isBrace
  replace isLast : last.kind = .closeBrace := isLast
  have literal : key.literal? = row.key.map (·.text) := by
    rw [Token.literal?, isKey, literal?_keyWord]
  have counted : count.kind.toNat? = some row.count.value := by rw [isCount, toNat?_count]
  have shapes : Hook.params ⟨tp ++ close :: (last :: t :: r), stop⟩ =
      .ok (row.params.map fun p => ParamShape.ofCode p.text, ⟨last :: t :: r, stop⟩) := by
    rw [Hook.params]
    simp only [paramShapes_listed row.trailing row.params params isClose]
    rfl
  simp only [List.cons_append, List.nil_append, List.append_assoc]
  rw [Hook.row, Reader.bind_eq (Reader.advance_eq key _ _),
    Reader.bind_eq (Reader.expect_eq isComma1 _ _),
    Reader.bind_eq (returnShape_eq isCode), Reader.bind_eq (Reader.expect_eq isComma2 _ _),
    Reader.bind_eq (paramCount_eq counted), Reader.bind_eq (Reader.expect_eq isComma3 _ _),
    Reader.bind_eq (Reader.expect_eq isBrace _ _), Reader.bind_eq shapes,
    Reader.bind_eq (Reader.expect_eq isLast _ _), Reader.bind_eq comma, literal,
    ArrayRow.signature?, Option.map_map]
  rfl

/-- What the signature of a row is read from, up to its number of parameters. -/
theorem row_lead {line : Nat} {s s' : Token.Stream} {signature : Signature}
    (done : Hook.row line s = .ok (some signature, s')) :
    signature.line = line ∧ ∃ key comma code comma' count r name,
      s.tokens = [key, comma, code, comma', count] ++ r ∧ key.literal? = some signature.key ∧
        comma.kind = .comma ∧ code.kind = .ident name ∧
        ReturnShape.ofCode name = signature.returns ∧ comma'.kind = .comma ∧
        count.kind.toNat? = some signature.declaredCount := by
  obtain ⟨key, s1, taken, done⟩ := Reader.bind_ok done
  obtain ⟨comma, s2, comma1, done⟩ := Reader.bind_ok done
  obtain ⟨returns, s3, shape, done⟩ := Reader.bind_ok done
  obtain ⟨comma', s4, comma2, done⟩ := Reader.bind_ok done
  obtain ⟨declared, s5, counted, done⟩ := Reader.bind_ok done
  obtain ⟨_, s6, -, done⟩ := Reader.bind_ok done
  obtain ⟨_, s7, -, done⟩ := Reader.bind_ok done
  obtain ⟨shapes, s8, -, done⟩ := Reader.bind_ok done
  obtain ⟨_, s9, -, done⟩ := Reader.bind_ok done
  obtain ⟨_, s10, -, done⟩ := Reader.bind_ok done
  obtain ⟨same, -⟩ := Prod.mk.inj (Except.ok.inj done)
  obtain ⟨text, literal, rfl⟩ := Option.map_eq_some_iff.mp same
  have solid : key.kind ≠ .stop := by
    intro stop
    rw [Token.literal?, stop] at literal
    cases literal
  obtain rfl := (Reader.advance_ok_iff solid).mp taken
  obtain ⟨rfl, isComma⟩ := (Reader.expect_ok_iff (by simp)).mp comma1
  obtain ⟨code, name, rfl, isCode, known⟩ := returnShape_ok_iff.mp shape
  obtain ⟨rfl, isComma'⟩ := (Reader.expect_ok_iff (by simp)).mp comma2
  obtain ⟨count, rfl, reads⟩ := paramCount_ok_iff.mp counted
  exact ⟨rfl, key, comma, code, comma', count, s5.tokens, name, rfl, literal, isComma, isCode,
    known, isComma', reads⟩

theorem rows_end {array : String} {close : Token} (isClose : close.kind = .closeBrace) :
    rows array ⟨close :: r, stop⟩ = .ok [] := by
  rw [rows, if_pos isClose]

/-- A row is read, and the rows behind it are read after it. -/
theorem rows_cons {array : String} {brace : Token} (isBrace : brace.kind = .openBrace)
    {signature : Option Signature} {s : Token.Stream}
    (read : Hook.row brace.span.line ⟨r, stop⟩ = .ok (signature, s)) :
    rows array ⟨brace :: r, stop⟩ = (rows array s).map (signature.toList ++ ·) := by
  rw [rows, if_neg (by simp [isBrace]), if_pos isBrace]
  split
  · rename_i fault failed
    rw [read] at failed
    cases failed
  · rename_i signature' s' done
    rw [read] at done
    cases done
    rfl

/-- The printed rows are read; those with a key have signatures. -/
theorem rows_listed (array : String) (trailing : Bool) (printed : List ArrayRow) {ts : List Token}
    (spelled : ts.map (·.kind) = (Word.listed trailing (printed.map (·.words))).map (·.kind))
    {close : Token} (isClose : close.kind = .closeBrace) (rest : List Token) (stop : Span) :
    ∃ signatures, rows array ⟨ts ++ close :: rest, stop⟩ = .ok signatures ∧
      List.Forall₂ ArrayRow.States (printed.filter (·.key.isSome)) signatures := by
  induction printed generalizing ts with
  | nil =>
    obtain rfl := List.map_eq_nil_iff.mp spelled
    exact ⟨[], rows_end isClose, .nil⟩
  | cons row l ih =>
    obtain ⟨tr, tc, tl, rfl, own, separator, back⟩ := Word.tokens_listed_cons spelled
    obtain ⟨brace, ti, rfl, isBrace, inside⟩ := List.map_eq_cons_iff.mp own
    obtain ⟨t, u, next, -, comma⟩ := Word.skip_separator separator back isClose rest stop
    obtain ⟨signatures, read, states⟩ := ih back
    have first := row_inside inside brace.span.line comma
    refine ⟨(row.signature? brace.span.line).toList ++ signatures, ?_, ?_⟩
    · rw [List.append_assoc, List.append_assoc, next, List.cons_append, rows_cons isBrace first,
        read]
      rfl
    · cases key : row.key with
      | none =>
        rw [List.filter_cons_of_neg (by simp [key]), ArrayRow.signature?, key]
        exact states
      | some k =>
        rw [List.filter_cons_of_pos (by simp [key])]
        have stated : row.States _ := ⟨brace.span.line, by rw [ArrayRow.signature?, key]; rfl⟩
        rw [ArrayRow.signature?, key]
        exact .cons stated states

theorem ArrayRow.plain_words (row : ArrayRow) : ∀ w ∈ row.words, w.isHash = false := by
  have key : row.keyWord.isHash = false := by
    unfold ArrayRow.keyWord
    cases row.key <;> rfl
  intro w member
  rw [ArrayRow.words, ArrayRow.inside, List.mem_cons, List.mem_append, List.mem_append] at member
  rcases member with rfl | (front | params) | ends
  · decide
  · simp only [List.mem_cons, List.not_mem_nil, or_false] at front
    rcases front with rfl | rfl | rfl | rfl | rfl | rfl | rfl
    · exact key
    · decide
    · rfl
    · decide
    · rfl
    · decide
    · decide
  · rcases Word.mem_listed params with rfl | ⟨item, listed, own⟩
    · decide
    · obtain ⟨p, -, rfl⟩ := List.mem_map.mp listed
      obtain rfl := List.mem_singleton.mp own
      rfl
  · revert w
    decide

/-- A printed array is read back. -/
theorem readSignatures_printed {written : List ArrayRow} {trailing : Bool} {source : String}
    (printed : Printed (arrayHead signatureArray) (arrayWords written trailing) source) :
    ∃ signatures, readSignatures source signatureArray = .ok signatures ∧
      List.Forall₂ ArrayRow.States (written.filter (·.key.isSome)) signatures := by
  have plain : ∀ item ∈ written.map (·.words), ∀ w ∈ item, w.isHash = false := by
    rw [List.forall_mem_map]
    exact fun row _ => row.plain_words
  have plainOpening : ∀ w ∈ arrayOpening, w.isHash = false := by decide
  obtain ⟨opening, inside, close, rest, whole, head, items, isClose⟩ :=
    printed.tokens_block plainOpening plain
  obtain ⟨signatures, read, states⟩ := rows_listed signatureArray trailing written items isClose
    rest (Token.scan source.toList 1).stop
  have kinds : opening.map (·.kind) = arrayHead signatureArray := head
  obtain ⟨a, more, rfl, -, head⟩ := List.map_eq_cons_iff.mp head
  obtain ⟨b, more, rfl, -, head⟩ := List.map_eq_cons_iff.mp head
  obtain ⟨c, more, rfl, -, head⟩ := List.map_eq_cons_iff.mp head
  obtain ⟨d, more, rfl, -, head⟩ := List.map_eq_cons_iff.mp head
  obtain ⟨e, more, rfl, -, head⟩ := List.map_eq_cons_iff.mp head
  obtain rfl := List.map_eq_nil_iff.mp head
  have found : afterArrayHead signatureArray (Token.scan source.toList 1).tokens =
      some (inside ++ close :: rest) := by
    rw [whole]
    exact afterArrayHead_skip kinds printed.first
  refine ⟨signatures, ?_, states⟩
  rw [readSignatures]
  simp only [found]
  exact read

end ScriptGlue.Hook
