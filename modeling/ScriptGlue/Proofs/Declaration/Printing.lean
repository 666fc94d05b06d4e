import ScriptGlue.Proofs.Declaration.Grammar
import ScriptGlue.Proofs.Declaration.Reading

/-!
# Printing declarations

A declaration is printed as `RET (*NAME)(ARGS);`, with single spaces between the words of types and
after commas; at the marks there are no spaces, or single ones as well. Reading undoes printing,
whatever follows the declaration.
-/
namespace ScriptGlue

open Token (Kind)

/-- The gap at a mark, which may be written with or without a space. -/
def joint (tight : Bool) : List Char := if tight then [] else [' ']

theorem blank_joint (tight : Bool) : ∀ c ∈ joint tight, Text.isBlank c = true := by
  cases tight <;> decide

/-- What starts with a mark, or with a space before it, lets no word go on. -/
theorem stops_joint {c : Char} {valid : isMark c = true} (stop : Word.stops c = true)
    (tight : Bool) (r : Row) (rest : List Char) :
    ∀ d ∈ (Row.chars (⟨joint tight, .mark c valid⟩ :: r) ++ rest).head?, Word.stops d = true := by
  intro d head
  cases tight with
  | true =>
    cases head
    exact stop
  | false =>
    cases head
    decide

theorem heldSpace_joint (tight : Bool) :
    Text.heldSpace (!(joint tight).isEmpty) = joint tight := by
  cases tight <;> rfl

namespace Param

/-- An argument as it is printed behind a gap. -/
def row (tight : Bool) (gap : List Char) : Param → Row
  | named type name => Row.ofWords gap (type.map (·.word) ++ [name.word])
  | array type name size =>
    Row.ofWords gap (type.map (·.word) ++ [name.word]) ++
      [⟨joint tight, .openBracket⟩, ⟨joint tight, size.word⟩, ⟨joint tight, .closeBracket⟩]
  | callback words => Row.ofWords gap words
  | variadic => Row.ofWords gap [.ellipsis]
  | unnamed type => Row.ofWords gap (type.map (·.word))

end Param

/-! ### Arguments -/

theorem squeezed_typeWords (type : List TypePart) :
    (type.map (·.word)).map (·.squeezed) = type.map (·.word) := by
  rw [List.map_map, List.map_inj_left]
  intro part member
  cases part <;> rfl

namespace Param

theorem words_row (p : Param) (tight : Bool) (gap : List Char) :
    (p.row tight gap).words = p.words := by
  cases p with
  | array type name size =>
    rw [row, Row.words_append, Row.words_ofWords, words, List.append_assoc]
    rfl
  | _ => exact Row.words_ofWords gap _

theorem kinds_row (p : Param) (tight : Bool) (gap : List Char) :
    (p.row tight gap).kinds = p.kinds := by
  rw [Row.kinds_eq_map_words, words_row, kinds]

/-- The words of an argument do not end it early. -/
theorem balanced {p : Param} (valid : p.WellFormed) :
    isBalanced 0 p.kinds = true ∧ isCommaFree 0 p.kinds = true := by
  have types (type : List TypePart) :
      ∀ k ∈ (type.map (·.word)).map (·.kind), k ≠ .openParen ∧ k ≠ .closeParen ∧ k ≠ .comma := by
    intro k member
    rw [kinds_type] at member
    obtain ⟨part, -, rfl⟩ := List.mem_map.mp member
    cases part <;> simp [TypePart.kind]
  cases p with
  | named type name =>
    apply isBalanced_of_flat
    intro k member
    rw [kinds, words, List.map_append] at member
    rcases List.mem_append.mp member with member | member
    · exact types type k member
    · rw [List.mem_singleton.mp member]
      simp [Identifier.word, Word.kind]
  | array type name size =>
    apply isBalanced_of_flat
    intro k member
    rw [kinds, words, List.map_append] at member
    rcases List.mem_append.mp member with member | member
    · exact types type k member
    · simp only [List.map_cons, List.map_nil, List.mem_cons, List.not_mem_nil, or_false] at member
      rcases member with rfl | rfl | rfl | rfl <;>
        simp [Identifier.word, SizeLiteral.word, Word.openBracket, Word.closeBracket, Word.kind,
          Token.markKind]
  | callback words => exact ⟨valid.1, valid.2.1⟩
  | variadic => exact ⟨rfl, rfl⟩
  | unnamed type => exact isBalanced_of_flat (types type)

theorem words_ne_nil {p : Param} (valid : p.WellFormed) : p.words ≠ [] := by
  cases p with
  | named type name => simp [words]
  | array type name size => simp [words]
  | callback words =>
    rintro rfl
    have long := valid.2.2.length_le
    simp at long
  | variadic => simp [words]
  | unnamed type => cases valid <;> simp [words]

/-- No argument is the lone word that stands for no arguments. -/
theorem kinds_ne_void {p : Param} (valid : p.WellFormed) : p.kinds ≠ [.ident "void"] := by
  intro void
  have single := congrArg List.length void
  rw [kinds, List.length_map] at single
  cases p with
  | named type name => exact valid.1 (by simpa [words] using single)
  | array type name size => simp [words] at single
  | callback words =>
    have long := valid.2.2.length_le
    simp only [Param.words, List.length_cons, List.length_nil, List.length_map] at single long
    omega
  | variadic => cases void
  | unnamed type =>
    cases valid with
    | single n valued =>
      simp only [kinds, words, List.map_cons, List.map_nil, TypePart.word, Identifier.word,
        Word.kind, List.cons.injEq, Token.Kind.ident.injEq, and_true] at void
      exact valued void
    | starred type =>
      have last := congrArg List.getLast? void
      simp [kinds, words, TypePart.word, Word.star, Word.kind, Token.markKind] at last
    | typeWord type n several word => exact several (by simpa [words] using single)
    | qualified type n several qualifiers => exact several (by simpa [words] using single)

/-- The type of an argument is spelled by its first words. -/
theorem lead_squeezed {p : Param} {tight : Bool} {gap : List Char}
    (single : Text.heldSpace (!gap.isEmpty) = gap) (type : List TypePart)
    (front : (p.row tight gap).take type.length = Row.ofWords gap (type.map (·.word))) :
    Row.lead (p.row tight gap).squeezed type.length = TypePart.typeText type := by
  rw [Row.lead, Row.squeezed, ← List.map_take, front, ← Row.squeezed,
    Row.squeezed_ofWords single, squeezed_typeWords, Row.inner_ofWords, String.ofList_toList]
  rfl

/-- An argument is read to what it stands for. -/
theorem argument_row {p : Param} (valid : p.WellFormed) {gap : List Char}
    (single : Text.heldSpace (!gap.isEmpty) = gap) (tight : Bool) (index : Nat) :
    Row.argument index (p.row tight gap).squeezed = p.argument index := by
  have told : ArgumentShape.ofKinds (p.row tight gap).squeezed.kinds = p.shape := by
    rw [← ArgumentShape.ofKinds_outline, Row.outline_kinds_squeezed,
      ArgumentShape.ofKinds_outline, kinds_row, ofKinds_kinds valid]
  rw [Row.argument, told]
  cases p with
  | named type name =>
    rw [shape, ArgumentShape.argument, lead_squeezed single type]
    · rfl
    · rw [row, Row.take_ofWords, List.take_left' (by simp)]
  | array type name size =>
    have enough : type.length ≤
        (Row.ofWords gap (type.map (·.word) ++ [name.word])).length := by
      rw [Row.length_ofWords]
      simp
    rw [shape, ArgumentShape.argument, lead_squeezed single type]
    · rfl
    · rw [row, List.take_append_of_le_length enough, Row.take_ofWords, List.take_left' (by simp)]
  | callback words => rfl
  | variadic => rfl
  | unnamed type =>
    rw [shape, ArgumentShape.argument, lead_squeezed single type]
    · rfl
    · rw [row, Row.take_ofWords, List.take_of_length_le (by simp)]

/-- The words of an argument stay apart. -/
theorem apart_row (p : Param) (tight : Bool) (gap : List Char) {rest : List Char}
    (stop : ∀ c ∈ rest.head?, Word.stops c = true) : (p.row tight gap).apart rest = true := by
  cases p with
  | array type name size =>
    rw [row, Row.apart_append, Bool.and_eq_true]
    constructor
    · exact Row.apart_ofWords gap _ (stops_joint (by decide) tight _ rest)
    · have closing : ∀ d ∈ (Row.chars [⟨joint tight, .closeBracket⟩] ++ rest).head?,
          Word.stops d = true :=
        stops_joint (by decide) tight [] rest
      have behind := size.word.fuses_of_stops closing
      rw [Row.apart, Row.apart, Row.apart, behind, Word.openBracket, Word.closeBracket,
        Word.fuses_mark (by decide) (by decide), Word.fuses_mark (by decide) (by decide)]
      rfl
  | _ => exact Row.apart_ofWords gap _ stop

theorem blanks_row (p : Param) (tight : Bool) {gap : List Char}
    (blank : ∀ c ∈ gap, Text.isBlank c = true) : (p.row tight gap).Blanks := by
  cases p with
  | array type name size =>
    refine Row.blanks_append (Row.blanks_ofWords blank _) ?_
    simpa [Row.Blanks] using blank_joint tight
  | _ => exact Row.blanks_ofWords blank _

end Param

/-! ### Declarations -/

def printedArgs (tight : Bool) (ps : List Param) : Row :=
  [⟨joint tight, .comma⟩].intercalate
    (ps.mapIdx fun i p => p.row tight (if i = 0 then joint tight else [' ']))

def printedRow (tight : Bool) (ret : List TypePart) (name : Identifier) (ps : List Param) : Row :=
  Row.ofWords [] (ret.map (·.word)) ++
    ([⟨[' '], .openParen⟩, ⟨joint tight, .star⟩, ⟨joint tight, name.word⟩,
        ⟨joint tight, .closeParen⟩, ⟨joint tight, .openParen⟩] ++
      (printedArgs tight ps ++ [⟨joint tight, .closeParen⟩, ⟨joint tight, .semicolon⟩]))

def printed (tight : Bool) (ret : List TypePart) (name : Identifier) (ps : List Param) : String :=
  String.ofList (printedRow tight ret name ps).chars

section Printed

variable {tight : Bool} {ret : List TypePart} {name : Identifier} {ps : List Param}

theorem blank_argGap (tight : Bool) (i : Nat) :
    ∀ c ∈ (if i = 0 then joint tight else [' ']), Text.isBlank c = true := by
  split
  · exact blank_joint tight
  · decide

theorem heldSpace_argGap (tight : Bool) (i : Nat) :
    Text.heldSpace (!(if i = 0 then joint tight else [' ']).isEmpty) =
      if i = 0 then joint tight else [' '] := by
  split
  · exact heldSpace_joint tight
  · rfl

def argRows (tight : Bool) (ps : List Param) : List Row :=
  ps.mapIdx fun i p => Row.squeezed (p.row tight (if i = 0 then joint tight else [' ']))

/-- The rows of arguments are chunks, and none of them stands for no argument. -/
theorem argRows_chunk (valid : ∀ p ∈ ps, p.WellFormed) :
    ∀ row ∈ argRows tight ps, row ≠ [] ∧ row.kinds ≠ [.ident "void"] ∧
      isBalanced 0 row.kinds = true ∧ isCommaFree 0 row.kinds = true := by
  intro row member
  obtain ⟨i, bound, rfl⟩ := List.mem_mapIdx.mp member
  have formed := valid _ (List.getElem_mem bound)
  generalize ps[i] = p at formed
  generalize (if i = 0 then joint tight else [' ']) = gap
  have same : (Row.squeezed (p.row tight gap)).kinds.map Word.outline =
      p.kinds.map Word.outline := by
    rw [Row.outline_kinds_squeezed, Param.kinds_row]
  refine ⟨?_, ?_, ?_, ?_⟩
  · intro empty
    rw [empty, Row.kinds_nil, List.map_nil] at same
    have none := List.map_eq_nil_iff.mp same.symm
    exact Param.words_ne_nil formed (List.map_eq_nil_iff.mp none)
  · intro void
    rw [void] at same
    exact Param.kinds_ne_void formed
      ((map_outline_eq_singleton (p := .ident "void") (by simp)).mp same.symm)
  · rw [← isBalanced_outline, same, isBalanced_outline]
    exact (Param.balanced formed).1
  · rw [← isCommaFree_outline, same, isCommaFree_outline]
    exact (Param.balanced formed).2

/-- Rows that are chunks are read one by one when commas join them. -/
theorem arguments_intercalate {gap : List Char} {rows : List Row}
    (chunk : ∀ row ∈ rows, row ≠ [] ∧ row.kinds ≠ [.ident "void"] ∧
      isBalanced 0 row.kinds = true ∧ isCommaFree 0 row.kinds = true) :
    Row.arguments ([⟨gap, .comma⟩].intercalate rows) = rows.mapIdx Row.argument := by
  cases rows with
  | nil => rfl
  | cons a r =>
    have cut : commaChunks (fun w : SpacedWord => w.word.kind) 0
        ([⟨gap, Word.comma⟩].intercalate (a :: r)) = a :: r :=
      commaChunks_intercalate rfl (List.cons_ne_nil a r)
        (fun row member => (chunk row member).2.2.2) fun row member => (chunk row member).2.2.1
    have some : (List.intercalate [⟨gap, Word.comma⟩] (a :: r)).isEmpty = false := by
      have first := (chunk a List.mem_cons_self).1
      cases r with
      | nil => simpa using first
      | cons b r => simp [List.intercalate_cons_cons]
    have all : (a :: r).filter (fun c => decide (Row.kinds c ≠ [.ident "void"])) = a :: r := by
      rw [List.filter_eq_self]
      intro row member
      exact decide_eq_true (chunk row member).2.1
    rw [Row.arguments, some]
    simp only [Bool.false_eq_true, if_false, cut, all]

/-- Printed arguments are read to what they stand for. -/
theorem arguments_printedArgs (valid : ∀ p ∈ ps, p.WellFormed) :
    Row.arguments (printedArgs tight ps).squeezed = ps.mapIdx fun i p => p.argument i := by
  have each : (ps.mapIdx fun i p => p.row tight (if i = 0 then joint tight else [' '])).map
      Row.squeezed = argRows tight ps := by
    apply List.ext_getElem?
    simp [argRows, Function.comp_def]
  have comma : Row.squeezed [⟨joint tight, .comma⟩] = [⟨joint tight, .comma⟩] := by
    cases tight <;> rfl
  rw [printedArgs, Row.squeezed_intercalate, each, comma,
    arguments_intercalate (argRows_chunk valid)]
  apply List.ext_getElem?
  intro i
  rw [List.getElem?_mapIdx, argRows, List.getElem?_mapIdx, List.getElem?_mapIdx, Option.map_map]
  cases found : ps[i]? with
  | none => rfl
  | some p =>
    have formed := valid p (List.mem_of_getElem? found)
    rw [Option.map_some, Option.map_some, Function.comp_apply,
      Param.argument_row formed (heldSpace_argGap tight i)]

theorem isBalanced_intercalate {gap : List Char} {rows : List Row}
    (each : ∀ row ∈ rows, isBalanced 0 row.kinds = true) :
    isBalanced 0 (Row.kinds ([⟨gap, .comma⟩].intercalate rows)) = true := by
  induction rows with
  | nil => rfl
  | cons a r ih =>
    have first := each a List.mem_cons_self
    have rest := ih fun row member => each row (List.mem_cons_of_mem _ member)
    cases r with
    | nil => rwa [List.intercalate_singleton]
    | cons b r =>
      rw [List.intercalate_cons_cons, Row.kinds_append, Row.kinds_append]
      exact isBalanced_append (isBalanced_append first rfl) rest

/-- Arguments stay apart when commas stand between them. -/
theorem apart_intercalate {rows : List Row} {rest : List Char}
    (stop : ∀ c ∈ rest.head?, Word.stops c = true)
    (each : ∀ row ∈ rows, ∀ s : List Char, (∀ c ∈ s.head?, Word.stops c = true) →
      row.apart s = true) :
    Row.apart ([⟨joint tight, .comma⟩].intercalate rows) rest = true := by
  induction rows with
  | nil => rfl
  | cons a r ih =>
    have first := each a List.mem_cons_self
    have later := ih fun row member => each row (List.mem_cons_of_mem _ member)
    cases r with
    | nil =>
      rw [List.intercalate_singleton]
      exact first rest stop
    | cons b r =>
      rw [List.intercalate_cons_cons, List.append_assoc, Row.apart_append, Bool.and_eq_true]
      refine ⟨first _ (stops_joint (by decide) tight _ rest), ?_⟩
      rw [List.singleton_append, Row.apart, later, Word.comma,
        Word.fuses_mark (by decide) (by decide)]
      rfl

theorem isBalanced_printedArgs (valid : ∀ p ∈ ps, p.WellFormed) :
    isBalanced 0 (printedArgs tight ps).kinds = true := by
  apply isBalanced_intercalate
  intro row member
  obtain ⟨i, bound, rfl⟩ := List.mem_mapIdx.mp member
  rw [Param.kinds_row]
  exact (Param.balanced (valid _ (List.getElem_mem bound))).1

/-- A printed declaration has the form that is read. -/
theorem printedRow_declares (ne : ret ≠ []) (valid : ∀ p ∈ ps, p.WellFormed) :
    Row.Declares (printedRow tight ret name ps) (Row.ofWords [] (ret.map (·.word))) name.text
      (printedArgs tight ps) where
  form := ⟨_, _, rfl, rfl, rfl⟩
  nonempty := by
    intro empty
    have length := Row.length_ofWords [] (ret.map (·.word))
    rw [empty, List.length_map] at length
    exact ne (List.length_eq_zero_iff.mp length.symm)
  types := by
    rw [Row.kinds_ofWords, kinds_type]
    exact all_isTypePart ret
  balanced := isBalanced_printedArgs valid

theorem apart_printedArgs {rest : List Char} (stop : ∀ c ∈ rest.head?, Word.stops c = true) :
    (printedArgs tight ps).apart rest = true := by
  apply apart_intercalate stop
  intro row member s stops
  obtain ⟨i, bound, rfl⟩ := List.mem_mapIdx.mp member
  exact Param.apart_row _ tight _ stops

theorem apart_printedRow (rest : List Char) :
    (printedRow tight ret name ps).apart rest = true := by
  have named (s : List Char) : name.word.fuses
      (Row.chars [⟨joint tight, .closeParen⟩, ⟨joint tight, .openParen⟩] ++ s) = false :=
    name.word.fuses_of_stops (stops_joint (by decide) tight _ s)
  rw [printedRow, Row.apart_append, Row.apart_append, Row.apart_append, Bool.and_eq_true,
    Bool.and_eq_true, Bool.and_eq_true]
  refine ⟨Row.apart_ofWords [] _ (by intro c head; cases head; decide), ?_,
    apart_printedArgs (stops_joint (by decide) tight _ rest), ?_⟩
  · rw [Row.apart, Row.apart, Row.apart, named, Row.apart, Row.apart, Row.apart, Word.openParen,
      Word.star, Word.closeParen, Word.fuses_mark (by decide) (by decide),
      Word.fuses_mark (by decide) (by decide), Word.fuses_mark (by decide) (by decide),
      Word.fuses_mark (by decide) (by decide)]
    rfl
  · rw [Row.apart, Row.apart, Row.apart, Word.closeParen, Word.semicolon,
      Word.fuses_mark (by decide) (by decide), Word.fuses_mark (by decide) (by decide)]
    rfl

theorem blanks_printedRow : (printedRow tight ret name ps).Blanks := by
  refine Row.blanks_append (Row.blanks_ofWords (by simp) _) (Row.blanks_append ?_
    (Row.blanks_append (Row.blanks_intercalate ?_ ?_) ?_))
  · have space : Text.isBlank ' ' = true := by decide
    simpa [Row.Blanks, space] using blank_joint tight
  · simpa [Row.Blanks] using blank_joint tight
  · intro row member
    obtain ⟨i, bound, rfl⟩ := List.mem_mapIdx.mp member
    exact Param.blanks_row _ tight (blank_argGap tight i)
  · simpa [Row.Blanks] using blank_joint tight

end Printed

/-- Reading undoes printing: a printed declaration, with any text behind it, is read to its name,
its return type and its arguments. -/
theorem Declaration.ofLine_printed (tight : Bool) {ret : List TypePart} (ne : ret ≠ [])
    (name : Identifier) {ps : List Param} (valid : ∀ p ∈ ps, p.WellFormed) (rest : String)
    (line : Nat) :
    Declaration.ofLine (printed tight ret name ps ++ rest) line = pure {
      name := name.text
      returnType := TypePart.typeText ret
      args := ps.mapIdx fun index p => p.argument index
      text := printed tight ret name ps ++ rest
      line := line } := by
  have whole : (printed tight ret name ps ++ rest).toList =
      (printedRow tight ret name ps).chars ++ rest.toList := by
    rw [String.toList_append, printed, String.toList_ofList]
  have flush : ∀ w ∈ (printedRow tight ret name ps).head?, w.gap = [] := by
    obtain ⟨part, more, rfl⟩ := List.exists_cons_of_ne_nil ne
    intro w head
    cases head
    rfl
  have done := (printedRow_declares ne valid).ofLine_eq whole flush blanks_printedRow
    (apart_printedRow rest.toList) line
  rw [done, arguments_printedArgs valid, Row.squeezed_ofWords rfl, squeezed_typeWords,
    Row.inner_ofWords, String.ofList_toList, TypePart.typeText]

/-- One argument of each form. -/
def sampleParams : List Param :=
  [.named [.name ⟨"const", by decide⟩, .name ⟨"char", by decide⟩, .star] ⟨"szName", by decide⟩,
    .array [.name ⟨"float", by decide⟩] ⟨"origin", by decide⟩ (.decimal 3),
    .array [.name ⟨"byte", by decide⟩] ⟨"bits", by decide⟩ (.hex false (1, false) [(15, true)]),
    .callback [.ident "int" (by decide), .openParen, .star, .ident "compare" (by decide),
      .closeParen, .openParen, .ident "int" (by decide), .comma, .ident "int" (by decide),
      .closeParen],
    .unnamed [.name ⟨"unsigned", by decide⟩, .name ⟨"int", by decide⟩],
    .variadic]

/-- A printed declaration with all of them. -/
def sampleText : String :=
  "edict_t * (*pfnSample)(const char * szName, float origin[3], byte bits[0x1F], " ++
    "int ( * compare ) ( int , int ), unsigned int, ...);"

/-- A declaration with an argument of each form is read back, whatever follows it. -/
theorem ofLine_printed_sample :
    [TypePart.name ⟨"edict_t", by decide⟩, .star] ≠ [] ∧ (∀ p ∈ sampleParams, p.WellFormed) ∧
      Declaration.ofLine (sampleText ++ " // \"more\"") 7 = pure {
        name := "pfnSample"
        returnType := "edict_t *"
        args := [.fixed ⟨"szName", "const char *", none⟩, .fixed ⟨"origin", "float*", some 3⟩,
          .fixed ⟨"bits", "byte*", some 31⟩, .fixed ⟨"compare", "void*", none⟩,
          .fixed ⟨"value4", "unsigned int", none⟩, .variadic]
        text := sampleText ++ " // \"more\""
        line := 7 } := by
  have ne : [TypePart.name ⟨"edict_t", by decide⟩, .star] ≠ [] := by simp
  have valid : ∀ p ∈ sampleParams, p.WellFormed := by
    simp only [sampleParams, List.forall_mem_cons, Param.WellFormed]
    refine ⟨⟨by simp, ⟨.star, by simp, rfl⟩, by decide⟩, ⟨by simp, by decide⟩,
      ⟨by simp, by decide⟩, ⟨by decide, by decide, ⟨[.ident "int"], _, rfl⟩⟩, ?_, trivial, by simp⟩
    exact .typeWord [.name ⟨"unsigned", by decide⟩] ⟨"int", by decide⟩ (by simp) (by decide)
  have text : printed true [.name ⟨"edict_t", by decide⟩, .star] ⟨"pfnSample", by decide⟩
      sampleParams = sampleText := by
    decide +kernel
  have args : (sampleParams.mapIdx fun i p => p.argument i) =
      [.fixed ⟨"szName", "const char *", none⟩, .fixed ⟨"origin", "float*", some 3⟩,
        .fixed ⟨"bits", "byte*", some 31⟩, .fixed ⟨"compare", "void*", none⟩,
        .fixed ⟨"value4", "unsigned int", none⟩, .variadic] := by
    decide +kernel
  have ret : TypePart.typeText [.name ⟨"edict_t", by decide⟩, .star] = "edict_t *" := by
    decide +kernel
  have done := Declaration.ofLine_printed true ne ⟨"pfnSample", by decide⟩ valid " // \"more\"" 7
  rw [text, args, ret] at done
  exact ⟨ne, valid, done⟩

end ScriptGlue
