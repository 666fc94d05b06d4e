import ScriptGlue.Proofs.Declaration.Outline
import ScriptGlue.Table.Body

/-!
# Names on one line

The name of a declaration that has been read is an identifier or made up from a line number, and its
return type is cut out of collapsed text. So generated code keeps the lines in one piece that they
stand on.
-/
namespace ScriptGlue

open Token (Kind)

/-! ### Identifiers -/

namespace Token

theorem markKind_ne_ident (c : Char) (name : String) : markKind c ≠ .ident name := by
  unfold markKind
  split <;> simp

/-- A lexeme that is told as a name is an identifier. -/
theorem isIdentifier_lexeme {c : Char} {r : List Char} {name : String}
    (named : (lexeme c r).kind = .ident name) : isIdentifier name = true := by
  unfold lexeme at named
  split at named
  · rename_i start
    cases named
    exact isIdentifier_iff.mpr ⟨c, _, String.toList_ofList, start,
      fun _ member => Cut.of_mem_span member⟩
  · split at named
    · cases named
    · split at named
      · cases named
      · split at named
        · cases named
        · exact absurd named (markKind_ne_ident _ name)

/-- So is every name among the tokens of a source. -/
theorem isIdentifier_scanFrom {p : Place} {s : List Char} {t : Token} {name : String}
    (member : t ∈ (scanFrom p s).tokens) (named : t.kind = .ident name) :
    isIdentifier name = true := by
  fun_induction scanFrom p s with
  | case1 p s cut gap ih => exact ih member
  | case2 p gap => cases member
  | case3 p c r gap l stop ih =>
    rcases List.mem_cons.mp member with rfl | member
    · exact isIdentifier_lexeme named
    · exact ih member

end Token

namespace Declaration

/-- A declaration that is read quotes its text, and has its name from a token, its return type from
the source and its arguments from the tokens of its list. -/
theorem reader_ok {source : List Char} {text : String} {line : Nat} {s s' : Token.Stream}
    {d : Declaration} (done : reader source text line s = .ok (d, s')) :
    d.text = text ∧ (∃ t ∈ s.tokens, t.kind = .ident d.name) ∧
      (∃ first last, d.returnType = textBetween source first last) ∧
      ∃ inner, d.args = arguments source inner ∧ ∀ t ∈ inner, t ∈ s.tokens := by
  obtain ⟨run, name, args, first, last, form, -, -, rfl⟩ := exists_form done
  obtain ⟨marks, close, rest, whole, marked, -⟩ := form.whole
  obtain ⟨o, star, named, shut, paren, rfl, -, -, names, -⟩ := exists_marks marked
  refine ⟨rfl, ⟨named, ?_, names⟩, ⟨first, last, rfl⟩, args, rfl, fun t member => ?_⟩
  · simp [whole]
  · simp [whole, member]

theorem mem_of_mem_textBetween {source : List Char} {first last : Token} {c : Char}
    (member : c ∈ (textBetween source first last).toList) : c ∈ source := by
  rw [textBetween, Text.trim, String.toList_ofList] at member
  have inSlice := Text.mem_of_mem_trimChars member
  rw [Span.text, String.toList_ofList, Span.slice] at inSlice
  exact List.mem_of_mem_drop (List.mem_of_mem_take inSlice)

/-- What a declaration is read to comes from its source: the name, the result and the tokens of the
arguments. -/
theorem read_ok {source text : String} {line : Nat} {d : Declaration}
    (done : read source text line = .ok d) :
    d.text = text ∧ isIdentifier d.name = true ∧ (∀ c ∈ d.returnType.toList, c ∈ source.toList) ∧
      ∃ inner, d.args = arguments source.toList inner ∧
        ∀ t ∈ inner, t ∈ (Token.scan source.toList line).tokens := by
  obtain ⟨s', taken⟩ := read_eq_ok_iff.mp done
  obtain ⟨quoted, ⟨t, member, named⟩, ⟨first, last, type⟩, args⟩ := reader_ok taken
  refine ⟨quoted, Token.isIdentifier_scanFrom member named, ?_, args⟩
  intro c inType
  rw [type] at inType
  exact mem_of_mem_textBetween inType

theorem firstPointerName?_mem {ts : List Token} {name : String}
    (found : firstPointerName? ts = some name) : ∃ t ∈ ts, t.kind = .ident name := by
  fun_induction firstPointerName? ts with
  | case1 a b c d r mark => exact ⟨c, by simp, Token.name?_eq_some_iff.mp found⟩
  | case2 a b c d r noMark ih =>
    obtain ⟨t, member, kind⟩ := ih found
    exact ⟨t, List.mem_cons_of_mem _ member, kind⟩
  | case3 ts short => cases found

/-- A name that is made up from a number is an identifier. -/
theorem isIdentifier_numbered {stem : String} (valid : isIdentifier stem = true) (n : Nat) :
    isIdentifier (stem ++ n.repr) = true := by
  obtain ⟨c, r, whole, start, rest⟩ := isIdentifier_iff.mp valid
  refine isIdentifier_iff.mpr ⟨c, r ++ Nat.toDigits 10 n, ?_, start, ?_⟩
  · rw [String.toList_append, Nat.toList_repr, whole, List.cons_append]
  · intro d member
    rcases List.mem_append.mp member with letter | digit
    · exact rest d letter
    · exact Text.isIdentRest_of_isDigit (Nat.isDigit_of_mem_toDigits (by decide) (by decide) digit)

/-- The name is an identifier, and the return type stays in one piece on a line. -/
structure OneLine (d : Declaration) : Prop where
  name : isIdentifier d.name = true
  returnType : Text.IsUnbroken d.returnType.toList

theorem oneLine_ofLine (text : String) (line : Nat) : (ofLine text line).value.OneLine := by
  rw [ofLine]
  split
  · rename_i d read
    obtain ⟨-, name, type, -⟩ := read_ok read
    exact ⟨name, fun c member => Text.isUnbroken_collapse text c (type c member)⟩
  · have marker : Text.IsUnbroken unparsableType.toList := by decide
    refine ⟨?_, marker⟩
    simp only [Logged.value_bind, Logged.value_pure, unparsable]
    cases found : firstPointerName? (Token.scan (Text.collapse text).toList line).tokens with
    | none =>
      have stem : isIdentifier "unknown" = true := by decide
      exact isIdentifier_numbered stem line
    | some name =>
      obtain ⟨t, member, named⟩ := firstPointerName?_mem found
      exact Token.isIdentifier_scanFrom member named

end Declaration

/-- Every declaration of a table that has been read keeps to one line. -/
theorem ParsedTable.oneLine_ofHeader {header : String} {table : Table} {logged : Logged ParsedTable}
    (found : ofHeader header table = .ok logged) :
    logged.value.table = table ∧ ∀ d ∈ logged.value.declarations, d.OneLine := by
  rw [ofHeader] at found
  cases lines : TableLines.ofHeader header table with
  | error fault =>
    rw [lines] at found
    cases found
  | ok content =>
    rw [lines] at found
    cases found
    refine ⟨rfl, ?_⟩
    intro d member
    simp only [Logged.value_bind, Logged.value_pure, Logged.value_forEach] at member
    obtain ⟨l, -, rfl⟩ := List.mem_map.mp member
    exact Declaration.oneLine_ofLine l.text l.line

end ScriptGlue
