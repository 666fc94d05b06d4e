import ScriptGlue.Proofs.Declaration.Spacing
import ScriptGlue.Proofs.Table.Comments
import ScriptGlue.Proofs.Table.Joining

/-!
# Layout of table bodies

A table body is a sequence of members `RET (*NAME)(ARGS);` with blanks between their words. Each
member is read to what it declares, whatever the blanks are, as long as members start on lines of
their own and are broken into lines only where a parenthesis is open. Without that proviso members
are lost, or taken apart.
-/
namespace ScriptGlue

open Token (Kind)

/-- A member of a table body: its return type, its name, and the words between the parentheses of
its arguments. -/
structure Member where
  ret : List TypePart
  name : Identifier
  args : List Word
  returns : ret ≠ []
  balanced : isBalanced 0 (args.map (·.kind)) = true
  /-- No literal, and no word that opens a directive. -/
  plain : ∀ w ∈ args, w.isPlain = true ∧ w.isHash = false

namespace Member

def words (m : Member) : List Word :=
  m.ret.map (·.word) ++ ([.openParen, .star, m.name.word, .closeParen, .openParen] ++
    (m.args ++ [.closeParen, .semicolon]))

/-- The arguments of a member whose words are one space apart. -/
def arguments (m : Member) : List Argument := (Row.ofWords [' '] m.args).arguments

theorem plain_words (m : Member) : ∀ w ∈ m.words, w.isPlain = true ∧ w.isHash = false := by
  intro w member
  rcases List.mem_append.mp member with member | member
  · obtain ⟨part, -, rfl⟩ := List.mem_map.mp member
    cases part <;> exact ⟨rfl, rfl⟩
  rcases List.mem_append.mp member with member | member
  · simp only [List.mem_cons, List.not_mem_nil, or_false] at member
    rcases member with rfl | rfl | rfl | rfl | rfl <;> exact ⟨rfl, rfl⟩
  rcases List.mem_append.mp member with member | member
  · exact m.plain w member
  · simp only [List.mem_cons, List.not_mem_nil, or_false] at member
    rcases member with rfl | rfl <;> exact ⟨rfl, rfl⟩

theorem nesting_words (m : Member) : nesting (m.words.map (·.kind)) = 0 := by
  have types : nesting (m.ret.map (·.kind)) = 0 := by
    induction m.ret with
    | nil => rfl
    | cons part r ih =>
      rw [List.map_cons, nesting_cons, ih]
      cases part <;> rfl
  have inside := nesting_of_isBalanced m.balanced
  rw [words, List.map_append, kinds_type, List.map_append, List.map_append, nesting_append,
    nesting_append, nesting_append, types, inside]
  rfl

/-- A row of the words of a member declares what the member does. -/
theorem declares {row : Row} {m : Member} (same : row.words = m.words) :
    ∃ ret args marks tail : Row, row = ret ++ (marks ++ (args ++ tail)) ∧
      ret.words = m.ret.map (·.word) ∧ args.words = m.args ∧
      row.Declares ret m.name.text args := by
  rw [words, Row.words, List.map_eq_append_iff] at same
  obtain ⟨ret, behind, rfl, retWords, same⟩ := same
  obtain ⟨marks, behind, rfl, markWords, same⟩ := List.map_eq_append_iff.mp same
  obtain ⟨args, tail, rfl, argWords, tailWords⟩ := List.map_eq_append_iff.mp same
  have retKinds : Row.kinds ret = m.ret.map (·.kind) := by
    rw [Row.kinds_eq_map_words, Row.words, retWords, kinds_type]
  refine ⟨ret, args, marks, tail, rfl, retWords, argWords, ?_⟩
  exact {
    form := by
      refine ⟨marks, tail, rfl, ?_, ?_⟩
      · rw [Row.kinds_eq_map_words, Row.words, markWords]
        rfl
      · rw [Row.kinds_eq_map_words, Row.words, tailWords]
        rfl
    nonempty := by
      rintro rfl
      exact m.returns (List.map_eq_nil_iff.mp retWords.symm)
    types := by
      rw [retKinds]
      exact all_isTypePart m.ret
    balanced := by
      rw [Row.kinds_eq_map_words, Row.words, argWords]
      exact m.balanced }

end Member

/-- A declaration that is what a member declares, up to spaces inside types. -/
structure ReadAs (m : Member) (d : Declaration) : Prop where
  name : d.name = m.name.text
  returnType : Respaced d.returnType (TypePart.typeText m.ret)
  args : List.Forall₂ Argument.Respaced d.args m.arguments

namespace ReadAs

/-- Any row of the words of a member is read to what the member declares. -/
theorem of_row {row : Row} {m : Member} (same : row.words = m.words) (blanks : row.Blanks)
    {rest : List Char} (apart : row.apart rest = true) {text : String}
    (whole : text.toList = row.inner ++ rest) (line : Nat) :
    ∃ d, Declaration.ofLine text line = pure d ∧ ReadAs m d := by
  have sameFlush : row.flush.words = m.words := by rw [Row.words_flush, same]
  obtain ⟨ret, args, marks, tail, parts, retWords, argWords, declares⟩ :=
    Member.declares sameFlush
  have blanksFlush := Row.blanks_flush blanks
  have apartFlush : row.flush.apart rest = true := by rwa [Row.apart_flush]
  have read := declares.ofLine_eq (by rwa [Row.chars_flush]) row.gap_flush blanksFlush apartFlush
    line
  rw [parts] at apartFlush blanksFlush
  rw [Row.apart_append, Row.apart_append, Row.apart_append, Bool.and_eq_true, Bool.and_eq_true,
    Bool.and_eq_true] at apartFlush
  have retBlanks : Row.Blanks ret := fun w member =>
    blanksFlush w (List.mem_append_left _ member)
  have argBlanks : Row.Blanks args := fun w member =>
    blanksFlush w (List.mem_append_right _
      (List.mem_append_right _ (List.mem_append_left _ member)))
  have retApart := apartFlush.1
  have argApart := apartFlush.2.2.1
  rw [← Row.apart_squeezed retBlanks] at retApart
  rw [← Row.apart_squeezed argBlanks] at argApart
  have plain := m.plain_words
  have retSame : Row.words (Row.squeezed ret) = (Row.ofWords [] (m.ret.map (·.word))).words := by
    rw [Row.words_ofWords, Row.words_squeezed, retWords]
    rw [retWords]
    exact fun w member => (plain w (List.mem_append_left _ member)).1
  have argSame : Row.words (Row.squeezed args) = (Row.ofWords [' '] m.args).words := by
    rw [Row.words_ofWords, Row.words_squeezed, argWords]
    rw [argWords]
    exact fun w member => (m.plain w member).1
  have alone (gap : List Char) (ws : List Word) : (Row.ofWords gap ws).apart [] = true :=
    Row.apart_ofWords gap ws (by simp)
  refine ⟨_, read, ?_⟩
  exact {
    name := rfl
    returnType := by
      have text : TypePart.typeText m.ret =
          String.ofList (Row.inner (Row.ofWords [] (m.ret.map (·.word)))) := by
        rw [Row.inner_ofWords, String.ofList_toList, TypePart.typeText]
      rw [text]
      exact Row.respaced_types retSame declares.squeezed.types (Row.squeezed_spaces ret)
        (Row.spaces_ofWords (by simp) _) retApart (alone [] _)
    args := Row.arguments_respaced argSame (Row.squeezed_spaces args)
      (Row.spaces_ofWords (by simp) _) argApart (alone [' '] _) }

end ReadAs

/-! ### Comments and directives -/

theorem isCommentFree_word {w : Word} (plain : w.isPlain = true) {s : List Char}
    (alone : w.fuses s = false) (free : TableLines.isCommentFree s = true) :
    TableLines.isCommentFree (w.chars ++ s) = true := by
  by_cases slash : '/' ∈ w.chars
  · obtain ⟨valid, rfl⟩ := Word.eq_mark_of_mem plain slash (by decide) (by decide)
    have next : (s.head? == some '/' || s.head? == some '*') = false := by
      simpa [Word.fuses] using alone
    rw [Word.chars, List.singleton_append, TableLines.isCommentFree, next, free]
    rfl
  · rw [TableLines.isCommentFree_flat slash, free]

/-- Where words stay apart, no comment starts. -/
theorem isCommentFree_row {row : Row} (plain : ∀ w ∈ row.words, w.isPlain = true)
    (blanks : row.Blanks) {rest : List Char} (apart : row.apart rest = true)
    (free : TableLines.isCommentFree rest = true) :
    TableLines.isCommentFree (row.chars ++ rest) = true := by
  induction row with
  | nil => exact free
  | cons w r ih =>
    rw [Row.apart, Bool.and_eq_true, Bool.not_eq_true'] at apart
    have later := ih (fun v member => plain v (List.mem_cons_of_mem _ member))
      (fun v member => blanks v (List.mem_cons_of_mem _ member)) apart.2
    have flat : '/' ∉ w.gap := fun member =>
      absurd (blanks w List.mem_cons_self _ member) (by decide)
    rw [Row.chars_cons, SpacedWord.chars, List.append_assoc, List.append_assoc,
      TableLines.isCommentFree_flat flat]
    exact isCommentFree_word (plain _ List.mem_cons_self) apart.1 later

theorem hash_not_mem_row {row : Row}
    (plain : ∀ w ∈ row.words, w.isPlain = true ∧ w.isHash = false) (blanks : row.Blanks) :
    '#' ∉ row.chars := by
  intro member
  obtain ⟨w, inside, here⟩ := List.mem_flatMap.mp member
  rcases List.mem_append.mp here with here | here
  · exact absurd (blanks w inside _ here) (by decide)
  · obtain ⟨noLiteral, noHash⟩ := plain w.word (List.mem_map_of_mem inside)
    obtain ⟨valid, word⟩ := Word.eq_mark_of_mem noLiteral here (by decide) (by decide)
    rw [word] at noHash
    cases noHash

/-! ### Layouts -/

/-- Lines that hold the rows of members are read without a remark. -/
theorem forEach_ofLine {members : List Member} {rows : List Row} {ls : List SourceLine}
    (words : List.Forall₂ (fun row m => Row.words row = Member.words m) rows members)
    (text : List.Forall₂ (fun row l => l.text.toList = Row.inner (Row.joined row)) rows ls)
    (each : ∀ row ∈ rows, Row.Blanks row ∧ Row.apart row [] = true) :
    ∃ ds, Logged.forEach (fun l : SourceLine => Declaration.ofLine l.text l.line) ls = pure ds ∧
      List.Forall₂ ReadAs members ds := by
  induction words generalizing ls with
  | nil =>
    cases text
    exact ⟨[], rfl, .nil⟩
  | @cons row m rows members same rest ih =>
    obtain ⟨l, ls, whole, later, rfl⟩ := List.forall₂_cons_left_iff.mp text
    obtain ⟨blanks, apart⟩ := each row List.mem_cons_self
    have joined : row.joined.words = m.words := by rw [Row.words_joined, same]
    have apart' : row.joined.apart [] = true := by rwa [Row.apart_joined blanks]
    have whole' : l.text.toList = row.joined.inner ++ [] := by rwa [List.append_nil]
    obtain ⟨d, read, readAs⟩ := ReadAs.of_row joined (Row.blanks_joined blanks) apart' whole' l.line
    obtain ⟨ds, reads, allReadAs⟩ := ih later fun r member => each r (List.mem_cons_of_mem _ member)
    refine ⟨d :: ds, ?_, .cons readAs allReadAs⟩
    rw [Logged.forEach, read, reads]
    rfl

/-- Members in order with blanks between their words and behind the last one. -/
structure Layout (members : List Member) where
  rows : List Row
  tail : List Char
  words : rows.map Row.words = members.map Member.words
  blanks : ∀ row ∈ rows, row.Blanks
  blankTail : ∀ c ∈ tail, Text.isBlank c = true
  /-- Blanks stand wherever words would fuse. -/
  apart : Row.apart rows.flatten tail = true

namespace Layout

variable {members : List Member}

def chars (layout : Layout members) : List Char := Row.chars layout.rows.flatten ++ layout.tail

/-- Lines are kept: a line feed stands before each member but the first, and inside a member only
where a parenthesis is open. -/
structure KeepsLines (layout : Layout members) : Prop where
  starts : ∀ row ∈ layout.rows.tail, ∀ w ∈ row.head?, '\n' ∈ w.gap
  breaks : ∀ row ∈ layout.rows, Row.breaksInside 0 row.tail = true

variable (layout : Layout members)

/-- Every row spells a member. -/
theorem words_mem {row : Row} (inside : row ∈ layout.rows) :
    ∃ m ∈ members, row.words = m.words := by
  have member := List.mem_map_of_mem (f := Row.words) inside
  rw [layout.words] at member
  obtain ⟨m, here, same⟩ := List.mem_map.mp member
  exact ⟨m, here, same.symm⟩

theorem joins (lines : layout.KeepsLines) {row : Row} (inside : row ∈ layout.rows) :
    row.Joins := by
  obtain ⟨m, -, same⟩ := layout.words_mem inside
  have plain : ∀ w ∈ row.words, w.isPlain = true := by
    rw [same]
    exact fun w member => (m.plain_words w member).1
  have nonempty : row ≠ [] := by
    rintro rfl
    simp [Row.words, Member.words] at same
  exact {
    nonempty := nonempty
    plain := plain
    blanks := layout.blanks row inside
    breaks := by
      rintro w r rfl
      have kept := lines.breaks _ inside
      have first : w.word.kind.nesting = 0 := by
        obtain ⟨part, more, whole⟩ := List.exists_cons_of_ne_nil m.returns
        rw [Member.words, whole] at same
        have word : w.word = part.word := (List.cons.inj same).1
        rw [word]
        cases part <;> rfl
      rw [first]
      exact kept
    closed := by
      rw [Row.kinds_eq_map_words, same]
      exact m.nesting_words }

theorem apart_row {row : Row} (inside : row ∈ layout.rows) : row.apart [] = true := by
  obtain ⟨s, apart⟩ := Row.apart_part layout.apart (List.infix_of_mem_flatten inside)
  exact Row.apart_alone apart

/-- The lines of a layout are its members, a line each. -/
theorem ofBody_eq (lines : layout.KeepsLines) {body : String} (whole : body.toList = layout.chars)
    (line : Nat) :
    (TableLines.ofBody body line).skipped = [] ∧
      List.Forall₂ (fun row l => l.text.toList = Row.inner row.joined) layout.rows
        (TableLines.ofBody body line).declarations := by
  have blanks : Row.Blanks layout.rows.flatten := by
    intro w member
    obtain ⟨row, inside, here⟩ := List.mem_flatten.mp member
    exact layout.blanks row inside w here
  have plain : ∀ w ∈ Row.words layout.rows.flatten, w.isPlain = true ∧ w.isHash = false := by
    intro w member
    obtain ⟨v, inside, rfl⟩ := List.mem_map.mp member
    obtain ⟨row, there, here⟩ := List.mem_flatten.mp inside
    obtain ⟨m, -, same⟩ := layout.words_mem there
    exact m.plain_words _ (same ▸ List.mem_map_of_mem here)
  have tailFree : TableLines.isCommentFree layout.tail = true := by
    have flat : '/' ∉ layout.tail := fun member => absurd (layout.blankTail _ member) (by decide)
    have same := TableLines.isCommentFree_flat flat []
    rw [List.append_nil] at same
    rw [same]
    rfl
  have free : TableLines.isCommentFree body.toList = true := by
    rw [whole]
    exact isCommentFree_row (fun w member => (plain w member).1) blanks layout.apart tailFree
  have noHash : '#' ∉ body.toList := by
    rw [whole, chars, List.mem_append, not_or]
    exact ⟨hash_not_mem_row plain blanks, fun member =>
      absurd (layout.blankTail _ member) (by decide)⟩
  rw [TableLines.ofBody_eq free noHash, whole, chars]
  refine ⟨rfl, ?_⟩
  have joined := TableLines.joinOpen_rows (fun row inside => layout.joins lines inside) lines.starts
    layout.blankTail
  cases shape : layout.rows.flatten with
  | nil =>
    rw [shape] at joined
    exact joined line
  | cons w r =>
    rw [shape] at joined
    obtain ⟨n, same⟩ := TableLines.textLines_blanks (blanks w (by simp [shape]))
      (Row.inner (w :: r) ++ layout.tail) line
    rw [Row.chars_eq_inner, List.append_assoc, same]
    exact joined n

/-- A table is read member by member, whatever the blanks between its words are, if the layout
keeps lines. -/
theorem ofHeader_readAs (lines : layout.KeepsLines) {header : String} {table : Table}
    {body : String} {line : Nat} (found : TableLines.body? header table = some (body, line))
    (whole : body.toList = layout.chars) :
    ∃ ds, ParsedTable.ofHeader header table = .ok (pure ⟨table, ds, []⟩) ∧
      List.Forall₂ ReadAs members ds := by
  obtain ⟨skipped, joined⟩ := layout.ofBody_eq lines whole line
  have words : List.Forall₂ (fun row m => Row.words row = Member.words m) layout.rows members := by
    have same : List.Forall₂ (· = ·) (layout.rows.map Row.words) (members.map Member.words) := by
      rw [List.forall₂_eq_eq_eq]
      exact layout.words
    rwa [List.forall₂_map_left_iff, List.forall₂_map_right_iff] at same
  obtain ⟨ds, each, read⟩ := forEach_ofLine words joined fun row inside =>
    ⟨layout.blanks row inside, layout.apart_row inside⟩
  refine ⟨ds, ?_, read⟩
  have clean : TableLines.clean body line = pure (TableLines.ofBody body line) := by
    rw [TableLines.clean, skipped]
    rfl
  rw [ParsedTable.ofHeader, TableLines.ofHeader, found]
  simp only [clean]
  change Except.ok (Logged.forEach (fun l : SourceLine => Declaration.ofLine l.text l.line)
    (TableLines.ofBody body line).declarations >>= fun ds =>
      pure (⟨table, ds, (TableLines.ofBody body line).skipped⟩ : ParsedTable)) = _
  rw [each, skipped]
  rfl

end Layout

/-! ### Samples -/

theorem isIdentifier_int : isIdentifier "int" = true := by decide

theorem isIdentifier_unsigned : isIdentifier "unsigned" = true := by decide

def sampleArgs : List Word := [.ident "int" isIdentifier_int, .comma, .ellipsis]

theorem plain_sampleArgs : ∀ w ∈ sampleArgs, w.isPlain = true ∧ w.isHash = false := by
  intro w member
  simp only [sampleArgs, List.mem_cons, List.not_mem_nil, or_false] at member
  rcases member with rfl | rfl | rfl <;> exact ⟨rfl, rfl⟩

/-- The member `unsigned int (*NAME)(int, ...);`. -/
def sampleMember (name : Identifier) : Member where
  ret := [.name ⟨"unsigned", isIdentifier_unsigned⟩, .name ⟨"int", isIdentifier_int⟩]
  name := name
  args := sampleArgs
  returns := List.cons_ne_nil _ _
  balanced := by decide
  plain := plain_sampleArgs

def firstMember : Member := sampleMember ⟨"a", by decide⟩
def secondMember : Member := sampleMember ⟨"b", by decide⟩

/-- The first sample behind given gaps. -/
def loneLayout (gaps : List String) (count : gaps.length = 12)
    (blank : ∀ gap ∈ gaps, ∀ c ∈ gap.toList, Text.isBlank c = true)
    (apart : (Row.ofGaps gaps firstMember.words).apart [] = true) : Layout [firstMember] where
  rows := [Row.ofGaps gaps firstMember.words]
  tail := []
  words := by rw [List.map_singleton, Row.words_ofGaps count, List.map_singleton]
  blanks := by
    intro row member
    rw [List.mem_singleton.mp member]
    exact Row.blanks_ofGaps blank
  blankTail := by simp
  apart := by simpa using apart

/-- Both samples behind given gaps. -/
def pairLayout (first second : List String) (count : first.length = 12 ∧ second.length = 12)
    (blank : ∀ gap ∈ first ++ second, ∀ c ∈ gap.toList, Text.isBlank c = true)
    (apart : (Row.ofGaps first firstMember.words ++
      Row.ofGaps second secondMember.words).apart ['\n'] = true) :
    Layout [firstMember, secondMember] where
  rows := [Row.ofGaps first firstMember.words, Row.ofGaps second secondMember.words]
  tail := ['\n']
  words := by
    rw [List.map_cons, List.map_singleton, Row.words_ofGaps count.1, Row.words_ofGaps count.2]
    rfl
  blanks := by
    intro row member
    simp only [List.mem_cons, List.not_mem_nil, or_false] at member
    rcases member with rfl | rfl
    · exact Row.blanks_ofGaps fun gap inside => blank gap (List.mem_append_left _ inside)
    · exact Row.blanks_ofGaps fun gap inside => blank gap (List.mem_append_right _ inside)
  blankTail := by decide
  apart := by simpa using apart

def sampleHeader (body : String) : String := s!"typedef struct \x7b{body}\x7d DLL_FUNCTIONS;"

/-- Two members, each on several lines. -/
def sampleBody : String :=
  "\n\tunsigned  int(*a)(int\n,\n...\t) ;\n\nunsigned\tint ( *\n b)(int,...);\n"

def sampleLayout : Layout [firstMember, secondMember] :=
  pairLayout ["\n\t", "  ", "", "", "", "", "", "", "\n", "\n", "\t", " "]
    ["\n\n", "\t", " ", " ", "\n ", "", "", "", "", "", "", ""] (by decide) (by decide) (by decide)

theorem ofHeader_readAs_sample : sampleLayout.KeepsLines ∧
    TableLines.body? (sampleHeader sampleBody) .dll = some (sampleBody, 1) ∧
      sampleBody.toList = sampleLayout.chars ∧
        ∃ ds, ParsedTable.ofHeader (sampleHeader sampleBody) .dll = .ok (pure ⟨.dll, ds, []⟩) ∧
          List.Forall₂ ReadAs [firstMember, secondMember] ds := by
  have lines : sampleLayout.KeepsLines := {
    starts := by decide
    breaks := by decide }
  have found : TableLines.body? (sampleHeader sampleBody) .dll = some (sampleBody, 1) := by
    decide +kernel
  have whole : sampleBody.toList = sampleLayout.chars := by decide +kernel
  exact ⟨lines, found, whole, sampleLayout.ofHeader_readAs lines found whole⟩

def countRead (body : String) : Option Nat :=
  (ParsedTable.ofHeader (sampleHeader body) .dll).toOption.map (·.value.declarations.length)

/-- Two members on one line are read as one. A member that is broken outside its parentheses is read
as two. -/
theorem countRead_of_lines :
    (∃ layout : Layout [firstMember, secondMember],
      layout.chars = "unsigned int (*a)(int, ...); unsigned int (*b)(int, ...);\n".toList) ∧
    countRead "unsigned int (*a)(int, ...); unsigned int (*b)(int, ...);\n" = some 1 ∧
    ∀ body ∈ ["unsigned\nint (*a)(int, ...);", "unsigned int\n(*a)(int, ...);",
        "unsigned int (*a)\n(int, ...);", "unsigned int (*a)(int, ...)\n;"],
      (∃ layout : Layout [firstMember], layout.chars = body.toList) ∧ countRead body = some 2 := by
  refine ⟨?_, by decide +kernel, ?_⟩
  · exact ⟨pairLayout ["", " ", " ", "", "", "", "", "", "", " ", "", ""]
      [" ", " ", " ", "", "", "", "", "", "", " ", "", ""] (by decide) (by decide) (by decide),
      by decide +kernel⟩
  · intro body member
    simp only [List.mem_cons, List.not_mem_nil, or_false] at member
    rcases member with rfl | rfl | rfl | rfl
    · exact ⟨⟨loneLayout ["", "\n", " ", "", "", "", "", "", "", " ", "", ""] rfl (by decide)
        (by decide), by decide +kernel⟩, by decide +kernel⟩
    · exact ⟨⟨loneLayout ["", " ", "\n", "", "", "", "", "", "", " ", "", ""] rfl (by decide)
        (by decide), by decide +kernel⟩, by decide +kernel⟩
    · exact ⟨⟨loneLayout ["", " ", " ", "", "", "", "\n", "", "", " ", "", ""] rfl (by decide)
        (by decide), by decide +kernel⟩, by decide +kernel⟩
    · exact ⟨⟨loneLayout ["", " ", " ", "", "", "", "", "", "", " ", "", "\n"] rfl (by decide)
        (by decide), by decide +kernel⟩, by decide +kernel⟩

end ScriptGlue
