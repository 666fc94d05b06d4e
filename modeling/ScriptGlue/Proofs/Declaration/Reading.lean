import ScriptGlue.Proofs.Declaration.Shape

/-!
# Reading declarations

What the reader takes: a run of identifiers and stars, a name in `( * NAME )`, and the tokens of one
more pair of parentheses. A row of words of that form is read to the declaration that it spells,
whatever follows it.
-/
namespace ScriptGlue

open Token (Kind)

namespace Declaration

/-- The reader takes a return type, a name and arguments. -/
theorem reader_eq (source : List Char) (text : String) (line : Nat) (stop : Span)
    {run inner rest : List Token} {first last open_ star named close paren : Token} {name : String}
    (types : run.all (·.kind.isTypePart) = true) (head : run.head? = some first)
    (final : run.getLast? = some last) (opens : open_.kind = .openParen)
    (starred : star.kind = .star) (names : named.kind = .ident name)
    (closes : close.kind = .closeParen) (opensAgain : paren.kind = .openParen)
    (inside : enclosed 0 rest = some inner) :
    reader source text line ⟨run ++ open_ :: star :: named :: close :: paren :: rest, stop⟩ =
      .ok ({
        name := name
        returnType := textBetween source first last
        args := arguments source inner
        text := text
        line := line }, ⟨rest, stop⟩) := by
  have all : ∀ t ∈ run, t.kind.isTypePart = true := List.all_eq_true.mp types
  have noType : ¬ open_.kind.isTypePart = true := by rw [opens]; decide
  have taken : (run ++ open_ :: star :: named :: close :: paren :: rest).takeWhile
      (·.kind.isTypePart) = run := by
    rw [List.takeWhile_append_of_pos all, List.takeWhile_cons, if_neg noType,
      List.append_nil]
  have dropped : (run ++ open_ :: star :: named :: close :: paren :: rest).dropWhile
      (·.kind.isTypePart) = open_ :: star :: named :: close :: paren :: rest := by
    rw [List.dropWhile_append_of_pos all, List.dropWhile_cons, if_neg noType]
  rw [reader, Reader.bind_eq (Reader.get_eq _)]
  dsimp only
  rw [taken, head, final, dropped]
  dsimp only
  rw [Reader.bind_eq (Reader.set_eq _ _), Reader.bind_eq (Reader.expect_eq opens _ _),
    Reader.bind_eq (Reader.expect_eq starred _ _),
    Reader.bind_eq (Reader.expectName_eq names _ _), Reader.bind_eq (Reader.expect_eq closes _ _),
    Reader.bind_eq (Reader.expect_eq opensAgain _ _), Reader.bind_eq (Reader.get_eq _), inside]
  rfl

end Declaration

/-- Tokens of the kinds `( * NAME ) (`. -/
theorem exists_marks {ts : List Token} {name : String}
    (kinds : ts.map (·.kind) = [.openParen, .star, .ident name, .closeParen, .openParen]) :
    ∃ o star named close paren, ts = [o, star, named, close, paren] ∧ o.kind = .openParen ∧
      star.kind = .star ∧ named.kind = .ident name ∧ close.kind = .closeParen ∧
      paren.kind = .openParen := by
  simp only [List.map_eq_cons_iff, List.map_eq_nil_iff] at kinds
  obtain ⟨o, _, rfl, ho, star, _, rfl, hs, named, _, rfl, hn, close, _, rfl, hc, paren, _, rfl,
    hp, rfl⟩ := kinds
  exact ⟨o, star, named, close, paren, rfl, ho, hs, hn, hc, hp⟩

theorem exists_cons_of_head_kind {ts : List Token} {kind : Kind}
    (head : (ts.map (·.kind)).head? = some kind) : ∃ t r, ts = t :: r ∧ t.kind = kind := by
  cases ts with
  | nil => cases head
  | cons t r => exact ⟨t, r, rfl, Option.some.inj head⟩

/-! ### Rows that declare -/

theorem Row.isHash_head_types {row : Row} (types : row.kinds.all (·.isTypePart) = true) :
    ∀ w ∈ row.head?, w.word.isHash = false := by
  intro w head
  have inside : w.word.kind ∈ row.kinds := List.mem_map_of_mem (List.mem_of_mem_head? head)
  exact Word.isHash_of_isTypePart (List.all_eq_true.mp types _ inside)

/-- A row of the form `RET ( * NAME ) ( ARGS )`, perhaps with more words behind it. -/
structure Row.Declares (row ret : Row) (name : String) (args : Row) : Prop where
  form : ∃ marks tail : Row, row = ret ++ (marks ++ (args ++ tail)) ∧
    marks.kinds = [.openParen, .star, .ident name, .closeParen, .openParen] ∧
    tail.kinds.head? = some .closeParen
  nonempty : ret ≠ []
  types : ret.kinds.all (·.isTypePart) = true
  balanced : isBalanced 0 args.kinds = true

namespace Row.Declares

variable {row ret args : Row} {name : String} (declares : row.Declares ret name args)
include declares

/-- A squeezed row declares what the row did. -/
theorem squeezed : row.squeezed.Declares ret.squeezed name args.squeezed where
  form := by
    obtain ⟨marks, tail, rfl, marked, closed⟩ := declares.form
    refine ⟨marks.squeezed, tail.squeezed, by simp, ?_, ?_⟩
    · apply eq_of_map_outline
      · simp
      · rw [Row.outline_kinds_squeezed, marked]
        rfl
    · have first := congrArg List.head? (Row.outline_kinds_squeezed tail)
      rw [List.head?_map, List.head?_map, closed] at first
      obtain ⟨k, head, same⟩ := Option.map_eq_some_iff.mp first
      rw [head, (outline_eq_iff (p := .closeParen) (by simp)).mp same]
  nonempty := by simpa [Row.squeezed] using declares.nonempty
  types := by
    rw [← all_isTypePart_outline, Row.outline_kinds_squeezed, all_isTypePart_outline]
    exact declares.types
  balanced := by
    rw [← isBalanced_outline, Row.outline_kinds_squeezed, isBalanced_outline]
    exact declares.balanced

/-- A row that declares something does not start like a directive. -/
theorem isHash_head : ∀ w ∈ row.head?, w.word.isHash = false := by
  obtain ⟨marks, tail, rfl, -⟩ := declares.form
  obtain ⟨w, r, shape⟩ := List.exists_cons_of_ne_nil declares.nonempty
  have here := isHash_head_types declares.types
  rw [shape] at here ⊢
  exact here

/-- A row is read to what it declares. -/
theorem read_eq {source : String} {rest : List Char} (whole : source.toList = row.chars ++ rest)
    (spaces : row.Spaces) (apart : row.apart rest = true) (text : String) (line : Nat) :
    Declaration.read source text line = .ok {
      name := name
      returnType := String.ofList ret.inner
      args := args.arguments
      text := text
      line := line } := by
  have scanned := Token.scanFrom_row spaces apart (Place.first line) fun _ => declares.isHash_head
  obtain ⟨marks, tail, rfl, marked, closed⟩ := declares.form
  have covers : Row.Covers source.toList (ret ++ (marks ++ (args ++ tail)))
      ((ret ++ (marks ++ (args ++ tail))).tokensFrom (Place.first line)) :=
    ⟨Place.first line, [], rest, by simp [whole], rfl, rfl⟩
  rw [← whole] at scanned
  obtain ⟨tr, ts, split, coversRet, coversMore⟩ := covers.append
  obtain ⟨tm, ts', rfl, coversMarks, coversMore'⟩ := coversMore.append
  obtain ⟨ta, tt, rfl, coversArgs, coversTail⟩ := coversMore'.append
  obtain ⟨o, star, named, close, paren, rfl, opens, starred, names, closes, opensAgain⟩ :=
    exists_marks (coversMarks.kinds_eq.trans marked)
  obtain ⟨last, behind, rfl, ends⟩ : ∃ last behind, tt = last :: behind ∧
      last.kind = .closeParen := exists_cons_of_head_kind (by rw [coversTail.kinds_eq, closed])
  have nonempty : tr ≠ [] := by
    rintro rfl
    exact declares.nonempty (List.length_eq_zero_iff.mp coversRet.length_eq.symm)
  have head := List.head?_eq_some_head nonempty
  have atEnd := List.getLast?_eq_some_getLast nonempty
  have types : tr.all (·.kind.isTypePart) = true := by
    have part := declares.types
    rw [← coversRet.kinds_eq, List.all_map] at part
    exact part
  rw [Declaration.read, Token.scan, scanned, split, Token.Stream.pushAll]
  generalize Token.scanFrom _ rest = s
  have inside := enclosed_of_isBalanced ends (behind ++ s.tokens)
    (by rw [coversArgs.kinds_eq]; exact declares.balanced)
  have taken := Declaration.reader_eq source.toList text line s.stop types head atEnd opens starred
    names closes opensAgain inside
  have order : tr ++ ([o, star, named, close, paren] ++ (ta ++ last :: behind)) ++ s.tokens =
      tr ++ o :: star :: named :: close :: paren :: (ta ++ last :: (behind ++ s.tokens)) := by
    simp
  rw [order, StateT.run', taken, Declaration.textBetween_eq coversRet head atEnd,
    Declaration.arguments_eq coversArgs]
  rfl

/-- Any text that starts with a row is read to what the row declares once blanks are squeezed. -/
theorem ofLine_eq {text : String} {rest : List Char} (whole : text.toList = row.chars ++ rest)
    (flush : ∀ w ∈ row.head?, w.gap = []) (blanks : row.Blanks) (apart : row.apart rest = true)
    (line : Nat) :
    Declaration.ofLine text line = pure {
      name := name
      returnType := String.ofList ret.squeezed.inner
      args := args.squeezed.arguments
      text := text
      line := line } := by
  have nonempty : row ≠ [] := by
    obtain ⟨marks, tail, rfl, -⟩ := declares.form
    simp [declares.nonempty]
  have solid : ∀ c ∈ text.toList.head?, Text.isBlank c = false := by
    rw [whole, Row.chars_eq_inner_of_flush flush, Row.head?_inner_append nonempty]
    exact row.head?_inner_solid
  have collapsed : (Text.collapse text).toList =
      row.squeezed.chars ++ Text.squeeze false rest := by
    rw [Text.toList_collapse_of_head solid, whole, Row.squeeze_chars blanks]
  have done := declares.squeezed.read_eq collapsed row.squeezed_spaces
    (by rw [Row.apart_squeezed blanks]; exact apart) text line
  rw [Declaration.ofLine, done]

end Row.Declares

end ScriptGlue
