import ScriptGlue.Proofs.Source.Comments
import ScriptGlue.Proofs.Table.Lines

/-!
# Comments in table bodies

A table body loses its comments line by line, with a flag for an open block comment. Its lines are
then those of what is left of the body as a whole, and they have the tokens of that text. So the
declarations of a table have the tokens of its body exactly if no token goes on into what is left
behind it; nothing stands in the place of a comment between two tokens.
-/
namespace ScriptGlue

open Token (kinds)

namespace Region

def ofOpen (inBlock : Bool) : Region := if inBlock then block else code

theorem kept_feed (inBlock : Bool) (s : List Char) :
    kept (ofOpen inBlock) ('\n' :: s) = '\n' :: kept (ofOpen inBlock) s := by
  cases inBlock with
  | false => exact kept_code_cons fun same => absurd same (by decide)
  | true => rfl

/-- A line loses its comments as it does in front of other lines. -/
theorem kept_strip {a : List Char} (clean : '\n' ∉ a) {t : List Char}
    (ends : ∀ c ∈ t.head?, c = '\n') (inBlock : Bool) :
    kept (ofOpen inBlock) (a ++ t) = (TableLines.stripComments inBlock a).2 ++
      kept (ofOpen (TableLines.stripComments inBlock a).1) t := by
  -- inside a block comment (`case2`, `case3`) only its end is told apart; outside, a comment of either
  -- kind begins (`case4`, `case5`) or a character is kept. What follows is a line feed or nothing, so
  -- no character of the line is paired with one behind it.
  fun_induction TableLines.stripComments inBlock a with
  | case1 => rfl
  | case2 r ih =>
    exact ih (List.not_mem_of_not_mem_cons (List.not_mem_of_not_mem_cons clean))
  | case3 c r noClose ih =>
    rw [List.mem_cons, not_or] at clean
    rw [← ih clean.2, List.cons_append]
    refine kept_block_other (fun star slash => ?_) (Ne.symm clean.1)
    cases r with
    | nil => exact absurd (ends '/' slash) (by decide)
    | cons d v =>
      obtain rfl := Option.some.inj slash
      exact noClose v star rfl
  | case4 r ih =>
    rw [← ih (List.not_mem_of_not_mem_cons (List.not_mem_of_not_mem_cons clean))]
    exact kept_openBlock (r ++ t)
  | case5 r =>
    have inside := List.not_mem_of_not_mem_cons (List.not_mem_of_not_mem_cons clean)
    change kept code ('/' :: '/' :: (r ++ t)) = kept code t
    rw [kept_openLine]
    cases t with
    | nil => rw [List.append_nil, kept_line_last inside, kept_nil]
    | cons c u =>
      obtain rfl := ends c rfl
      rw [kept_line inside]
      exact (kept_feed false u).symm
  | case6 c r noBlock noLine inBlock left same ih =>
    rw [List.mem_cons, not_or] at clean
    have here : c = '/' → (r ++ t).head?.any Token.opensComment = false := by
      intro slash
      cases r with
      | nil =>
        cases t with
        | nil => rfl
        | cons d u => rw [ends d rfl]; rfl
      | cons d u =>
        exact Token.head?_opensComment (r := d :: u) (fun v => noBlock v slash)
          fun v => noLine v slash
    have step : kept code (c :: (r ++ t)) = c :: kept code (r ++ t) := kept_code_cons here
    rw [same] at ih
    exact step.trans (congrArg (c :: ·) (ih clean.2))

end Region

namespace TableLines

open Region (kept ofOpen)

theorem strip_eq {a : List Char} (clean : '\n' ∉ a) (inBlock : Bool) :
    (stripComments inBlock a).2 = kept (ofOpen inBlock) a := by
  have whole := Region.kept_strip clean (t := []) (by simp) inBlock
  rw [Region.kept_nil, List.append_nil, List.append_nil] at whole
  exact whole.symm

/-- A return at the end of a line changes nothing about the comments of the line. -/
theorem strip_return (inBlock : Bool) (a : List Char) :
    (stripComments inBlock (a ++ ['\r'])).1 = (stripComments inBlock a).1 ∧
      ((stripComments inBlock (a ++ ['\r'])).2 = (stripComments inBlock a).2 ∨
        (stripComments inBlock (a ++ ['\r'])).2 = (stripComments inBlock a).2 ++ ['\r']) := by
  -- the return is paired with no character before it, so every case goes the same way with it
  fun_induction stripComments inBlock a with
  | case1 inBlock => cases inBlock <;> simp [stripComments]
  | case2 r ih | case4 r ih => exact ih
  | case3 c r noClose ih =>
    have noClose' : ∀ t, c = '*' → r ++ ['\r'] = '/' :: t → False := by
      intro t star slash
      cases r with
      | nil => exact absurd (List.cons.inj slash).1 (by decide)
      | cons d u => exact noClose u star (by rw [(List.cons.inj slash).1])
    rw [List.cons_append, stripComments]
    · exact ih
    · exact noClose'
  | case5 => exact ⟨rfl, .inl rfl⟩
  | case6 c r noBlock noLine inBlock left same ih =>
    have other {d : Char} (noOpen : ∀ t, c = '/' → r = d :: t → False) (solid : d ≠ '\r') :
        ∀ t, c = '/' → r ++ ['\r'] = d :: t → False := by
      intro t slash opens
      cases r with
      | nil => exact solid (List.cons.inj opens).1.symm
      | cons e u => exact noOpen u slash (by rw [(List.cons.inj opens).1])
    rw [List.cons_append, stripComments]
    · rw [same] at ih
      refine ⟨ih.1, ih.2.imp (fun whole => ?_) fun whole => ?_⟩
      · exact congrArg (c :: ·) whole
      · exact congrArg (c :: ·) whole
    · exact other noBlock (by decide)
    · exact other noLine (by decide)

/-- With or without its return, a line leaves the same text once it is trimmed. -/
theorem strip_dropReturn (inBlock : Bool) (a : List Char) :
    (stripComments inBlock (Text.dropReturn a)).1 = (stripComments inBlock a).1 ∧
      Text.trimChars (stripComments inBlock (Text.dropReturn a)).2 =
        Text.trimChars (stripComments inBlock a).2 := by
  unfold Text.dropReturn
  split
  · rename_i returns
    obtain ⟨s, rfl⟩ := List.getLast?_eq_some_iff.mp returns
    obtain ⟨flag, whole⟩ := strip_return inBlock s
    rw [List.dropLast_concat, flag]
    refine ⟨rfl, ?_⟩
    rcases whole with same | more
    · rw [same]
    · rw [more, Text.trimChars_concat (by decide)]
  · exact ⟨rfl, rfl⟩

theorem keptLine_congr {a b : List Char} (same : Text.trimChars a = Text.trimChars b)
    (line : Nat) : keptLine line a = keptLine line b := by
  rw [keptLine_trim, keptLine_trim, same]

/-- Whatever a body holds, it is cut into the lines of what is left of it without comments. -/
theorem contentLines_kept (body : String) (line : Nat) :
    contentLines body line = textLines line (kept .code body.toList) := by
  have cut (s : List Char) (inBlock : Bool) (line : Nat) :
      (numbered line (stripAll inBlock (Text.lineChars s))).filter (!·.text.isEmpty) =
        textLines line (kept (ofOpen inBlock) s) := by
    have unbroken {a : List Char} (clean : '\n' ∉ a) (inBlock : Bool) :
        '\n' ∉ (stripComments inBlock a).2 := fun member =>
      clean (mem_of_mem_stripComments member)
    induction s using Text.line_induction generalizing inBlock line with
    | last a clean =>
      rw [← strip_eq clean, textLines_last (unbroken clean inBlock)]
      by_cases nothing : a = []
      · rw [nothing, Text.lineChars_nil, stripComments]
        rfl
      · rw [Text.lineChars_last clean nothing, stripAll, filter_numbered_cons, stripAll, numbered,
          List.filter_nil, List.append_nil]
    | line a b clean ih =>
      obtain ⟨flag, trimmed⟩ := strip_dropReturn inBlock a
      rw [Text.lineChars_line clean, stripAll, filter_numbered_cons, flag, ih,
        keptLine_congr trimmed, Region.kept_strip clean (by simp), Region.kept_feed,
        textLines_line (unbroken clean inBlock)]
  exact cut body.toList false line

/-- A body without literals and directives is joined from the lines of what is left of it without
comments. -/
theorem ofBody_kept {body : String} (flat : IsFlat body.toList) (line : Nat) :
    ofBody body line = ⟨joinOpen none (textLines line (kept .code body.toList)), []⟩ := by
  refine ofBody_of_content (contentLines_kept body line) fun member => ?_
  exact (flat '#' (Region.subset_kept _ _ member)).1 rfl

/-! ### Tokens of lines -/

theorem isCommentFree_cons_iff {c : Char} {r : List Char} : isCommentFree (c :: r) = true ↔
    (c = '/' → r.head?.any Token.opensComment = false) ∧ isCommentFree r = true := by
  rw [isCommentFree, Bool.and_eq_true, Bool.not_eq_true']
  refine and_congr_left fun _ => ?_
  cases r <;> simp [Token.opensComment]

/-- A text without comments is left as it is. -/
theorem kept_eq_self {s : List Char} (free : isCommentFree s = true) : kept .code s = s := by
  induction s with
  | nil => rfl
  | cons c r ih =>
    obtain ⟨here, later⟩ := isCommentFree_cons_iff.mp free
    rw [Region.kept_code_cons here, ih later]

/-- A body without comments and directives is joined from its lines. -/
theorem ofBody_eq {body : String} (free : isCommentFree body.toList = true)
    (plain : '#' ∉ body.toList) (line : Nat) :
    ofBody body line = ⟨joinOpen none (textLines line body.toList), []⟩ := by
  have content := contentLines_kept body line
  rw [kept_eq_self free] at content
  exact ofBody_of_content content plain

/-- What is left of a text without comments has no comments. -/
theorem isCommentFree_kept (region : Region) (s : List Char) :
    isCommentFree (kept region s) = true := by
  fun_induction kept region s with
  | case1 => rfl
  | case2 r ih | case3 r ih | case6 c r _ ih | case7 r ih | case9 c r _ _ ih => exact ih
  | case4 c r noBlock noLine ih =>
    refine isCommentFree_cons_iff.mpr ⟨fun slash => Region.head?_kept ?_, ih⟩
    exact Token.head?_opensComment (fun t => noBlock t slash) fun t => noLine t slash
  | case5 r ih | case8 r ih => exact isCommentFree_cons_iff.mpr ⟨by simp, ih⟩

end TableLines

open TableLines (isCommentFree)

/-- A text without comments, directives and literals whose blanks all part tokens. -/
structure IsBare (s : List Char) : Prop where
  flat : IsFlat s
  free : isCommentFree s = true
  spaces : ∀ c ∈ s, Text.isBlank c = true → Token.isSpace c = true

namespace IsBare

theorem inside {a b s : List Char} (bare : IsBare (a ++ (s ++ b))) : IsBare s where
  flat := bare.flat.right.left
  free := (TableLines.isCommentFree_append (TableLines.isCommentFree_append bare.free).2).1
  spaces c member := bare.spaces c (by simp [member])

theorem head?_append_space {c : Char} (space : Token.isSpace c = true) {r : List Char}
    (free : r.head?.any Token.opensComment = false) (b : List Char) :
    (r ++ c :: b).head?.any Token.opensComment = false := by
  cases r with
  | nil =>
    have noOpen : ∀ d, Token.opensComment d = true → Token.isSpace d = false := by
      intro d opens
      rw [Token.opensComment, Bool.or_eq_true, beq_iff_eq, beq_iff_eq] at opens
      rcases opens with rfl | rfl <;> rfl
    rw [List.nil_append, List.head?_cons, Option.any_some, Bool.eq_false_iff]
    intro opens
    rw [noOpen c opens] at space
    cases space
  | cons d t => exact free

theorem append_space {a b : List Char} (first : IsBare a) (second : IsBare b) :
    IsBare (a ++ ' ' :: b) where
  flat c member := by
    simp only [List.mem_append, List.mem_cons] at member
    rcases member with member | rfl | member
    · exact first.flat c member
    · decide
    · exact second.flat c member
  free := by
    have free := first.free
    induction a with
    | nil => exact TableLines.isCommentFree_cons_iff.mpr ⟨by simp, second.free⟩
    | cons c r ih =>
      obtain ⟨here, later⟩ := TableLines.isCommentFree_cons_iff.mp free
      refine TableLines.isCommentFree_cons_iff.mpr ⟨fun slash => ?_, ih ?_ later⟩
      · exact head?_append_space rfl (here slash) b
      · exact ⟨first.flat.tail, later, fun d member => first.spaces d (List.mem_cons_of_mem c member)⟩
  spaces c member blank := by
    simp only [List.mem_append, List.mem_cons] at member
    rcases member with member | rfl | member
    · exact first.spaces c member blank
    · rfl
    · exact second.spaces c member blank

/-- In a bare text, gaps are blanks. -/
theorem gap_cases {c : Char} {r : List Char} (bare : IsBare (c :: r)) {fresh : Bool} {cut : Cut}
    (found : Token.gap? fresh (c :: r) = some cut) : Token.isSpace c = true ∧ cut = ⟨[c], r⟩ := by
  by_cases space : Token.isSpace c = true
  · refine ⟨space, ?_⟩
    rw [Token.gap?_space space] at found
    exact (Option.some.inj found).symm
  · have noGap : Token.gap? fresh (c :: r) = none := by
      refine Token.gap?_eq_none_iff.mpr ⟨by simpa using space, ?_, fun hash => ?_⟩
      · exact (TableLines.isCommentFree_cons_iff.mp bare.free).1
      · exact absurd hash (bare.flat c List.mem_cons_self).1
    rw [noGap] at found
    cases found

end IsBare

theorem Token.spares_behind {c : Char} (space : isSpace c = true) (b : List Char) :
    Spares (· ++ c :: b) where
  ident r := by
    refine Cut.span_append r (Bool.eq_false_iff.mpr fun rest => ?_)
    have solid := Text.isBlank_of_isIdentRest rest
    rw [isBlank_of_isSpace space] at solid
    cases solid
  number r := by
    refine Cut.span_append r (Bool.eq_false_iff.mpr fun rest => ?_)
    have solid := isBlank_of_isNumberRest rest
    rw [isBlank_of_isSpace space] at solid
    cases solid
  dots t := rfl
  eq_dots {r t} same := by
    have noDot : c ≠ '.' := by
      rintro rfl
      cases space
    match r with
    | [] => exact absurd (List.cons.inj same).1 noDot
    | [d] => exact absurd (List.cons.inj (List.cons.inj same).2).1 noDot
    | d :: e :: u =>
      obtain ⟨first, same⟩ := List.cons.inj same
      exact ⟨u, by rw [first, (List.cons.inj same).1]⟩

namespace IsBare

theorem tail {c : Char} {r : List Char} (bare : IsBare (c :: r)) : IsBare r :=
  inside (a := [c]) (b := []) (by rwa [List.append_nil])

/-- A blank parts what stands before it from what follows. -/
theorem kinds_append {a b : List Char} {c : Char} (bare : IsBare a) (flat : IsFlat (a ++ c :: b))
    (space : Token.isSpace c = true) : kinds (a ++ c :: b) = kinds a ++ kinds b := by
  fun_induction Token.pieces true a with
  | case1 fresh a cut found ih =>
    cases a with
    | nil => cases found
    | cons d r =>
      obtain ⟨blank, rfl⟩ := bare.gap_cases found
      rw [List.cons_append] at flat ⊢
      rw [Token.kinds_gap flat (Token.gap?_space blank fresh (r ++ c :: b)),
        Token.kinds_gap bare.flat found]
      exact ih bare.tail flat.tail
  | case2 =>
    rw [Token.kinds_nil]
    exact Token.kinds_gap flat (Token.gap?_space space true b)
  | case3 fresh d r noGap l ih =>
    obtain ⟨noSpace, noComment, noHash⟩ := Token.gap?_eq_none_iff.mp noGap
    have noGap' : Token.gap? fresh (d :: (r ++ c :: b)) = none :=
      Token.gap?_eq_none_iff.mpr
        ⟨noSpace, fun slash => head?_append_space space (noComment slash) b, noHash⟩
    have noQuote := (bare.flat d List.mem_cons_self).2
    have whole := (Token.isLexeme_lexeme d r).whole
    have rest : IsBare l.cut.rest :=
      inside (a := l.cut.piece) (b := []) (by rwa [List.append_nil, whole])
    rw [List.cons_append] at flat ⊢
    rw [Token.kinds_token flat noGap', Token.kinds_token bare.flat noGap,
      (Token.spares_behind space b).lexeme_eq noQuote r]
    refine congrArg (l.kind :: ·) (ih rest ?_)
    rw [← List.cons_append, ← whole, List.append_assoc] at flat
    exact flat.right

theorem kinds_append_blanks {a after : List Char} (bare : IsBare (a ++ after))
    (blank : ∀ c ∈ after, Text.isBlank c = true) : kinds (a ++ after) = kinds a := by
  have spaces (c : Char) (member : c ∈ after) : Token.isSpace c = true :=
    bare.spaces c (by simp [member]) (blank c member)
  cases after with
  | nil => rw [List.append_nil]
  | cons c r =>
    have nothing : kinds (r ++ []) = [] := by
      rw [← Token.kinds_nil]
      refine Token.kinds_spaces ?_ fun d member => spaces d (List.mem_cons_of_mem c member)
      rw [List.append_nil]
      exact bare.flat.right.tail
    rw [kinds_append (inside (a := []) bare) bare.flat (spaces c List.mem_cons_self),
      ← List.append_nil r, nothing, List.append_nil]

/-- Blanks around a text are no tokens. -/
theorem kinds_trimChars {s : List Char} (bare : IsBare s) : kinds (Text.trimChars s) = kinds s := by
  obtain ⟨before, after, blankBefore, blankAfter, whole⟩ := Text.exists_trimChars s
  rw [whole] at bare
  have spaces (c : Char) (member : c ∈ before) : Token.isSpace c = true :=
    bare.spaces c (by simp [member]) (blankBefore c member)
  have rest : IsBare (Text.trimChars s ++ after) :=
    inside (a := before) (b := []) (by rwa [List.append_nil])
  conv => rhs; rw [whole]
  rw [Token.kinds_spaces bare.flat spaces, rest.kinds_append_blanks blankAfter]

end IsBare

def SourceLine.kinds (l : SourceLine) : List Token.Kind := Token.kinds l.text.toList

namespace TableLines

theorem kinds_keptLine {a : List Char} (bare : IsBare a) (line : Nat) :
    (keptLine line a).flatMap (·.kinds) = kinds a := by
  rw [← bare.kinds_trimChars, keptLine_trim]
  split
  · rename_i empty
    rw [empty, Token.kinds_nil]
    rfl
  · rw [List.flatMap_cons, List.flatMap_nil, List.append_nil, SourceLine.kinds,
      String.toList_ofList]

/-- The lines of a bare text have its tokens. -/
theorem kinds_textLines {s : List Char} (bare : IsBare s) (line : Nat) :
    (textLines line s).flatMap (·.kinds) = kinds s := by
  induction s using Text.line_induction generalizing line with
  | last a clean => rw [textLines_last clean, kinds_keptLine bare]
  | line a b clean ih =>
    have before : IsBare a := IsBare.inside (a := []) (b := '\n' :: b) bare
    have behind : IsBare ('\n' :: b) := by
      refine IsBare.inside (a := a) (b := []) ?_
      rwa [List.append_nil]
    rw [textLines_line clean, List.flatMap_append, kinds_keptLine before, ih behind.tail,
      before.kinds_append bare.flat rfl]

theorem isBare_of_mem_textLines {s : List Char} (bare : IsBare s) {line : Nat} {l : SourceLine}
    (member : l ∈ textLines line s) : IsBare l.text.toList := by
  obtain ⟨t, ⟨a, b, whole⟩, text⟩ := text_of_mem_textLines member
  obtain ⟨before, after, -, -, trimmed⟩ := Text.exists_trimChars t
  rw [text]
  rw [← whole, List.append_assoc] at bare
  have line := bare.inside
  rw [trimmed] at line
  exact line.inside

/-- A line that is joined to a pending one has the tokens of both. -/
theorem kinds_joinLine {pending : Option SourceLine} {l : SourceLine}
    (held : ∀ p ∈ pending, IsBare p.text.toList) (bare : IsBare l.text.toList) :
    IsBare (joinLine pending l).text.toList ∧
      (joinLine pending l).kinds = pending.toList.flatMap (·.kinds) ++ l.kinds := by
  cases pending with
  | none => exact ⟨bare, rfl⟩
  | some p =>
    have spelled : (joinLine (some p) l).text.toList = p.text.toList ++ ' ' :: l.text.toList := by
      simp [joinLine]
      rfl
    have joined := (held p rfl).append_space bare
    refine ⟨by rwa [spelled], ?_⟩
    rw [SourceLine.kinds, spelled, (held p rfl).kinds_append joined.flat rfl]
    simp [SourceLine.kinds]

/-- Lines have the same tokens when they are joined. -/
theorem kinds_joinOpen {pending : Option SourceLine} {ls : List SourceLine}
    (held : ∀ p ∈ pending, IsBare p.text.toList) (each : ∀ l ∈ ls, IsBare l.text.toList) :
    (joinOpen pending ls).flatMap (·.kinds) =
      pending.toList.flatMap (·.kinds) ++ ls.flatMap (·.kinds) := by
  induction ls generalizing pending with
  | nil => simp [joinOpen]
  | cons l r ih =>
    obtain ⟨bare, joined⟩ := kinds_joinLine held (each l List.mem_cons_self)
    have later : ∀ m ∈ r, IsBare m.text.toList := fun m member =>
      each m (List.mem_cons_of_mem _ member)
    rw [joinOpen, List.flatMap_cons, ← List.append_assoc, ← joined]
    split
    · rw [ih (by simpa using bare) later]
      simp
    · rw [List.flatMap_cons, ih (by simp) later]
      simp

/-- A character that is no quote and no hash, and that parts tokens if it is a blank: every
printable character of ASCII but those two, the tab and the line feed are plain. -/
def isPlain (c : Char) : Bool :=
  c != '"' && c != '#' && (!Text.isBlank c || c == ' ' || c == '\t' || c == '\n')

/-- The declarations of a table have the tokens of its body exactly if, as comments go, no token
goes on into what is left behind it. -/
theorem kinds_clean_iff {body : String} (plain : ∀ c ∈ body.toList, isPlain c = true) (line : Nat) :
    (clean body line).value.declarations.flatMap (·.kinds) = kinds body.toList ↔
      Token.staysApart (Token.pieces true body.toList) = true := by
  have flat : IsFlat body.toList := fun c member => by
    have here := plain c member
    simp only [isPlain, Bool.and_eq_true, bne_iff_ne] at here
    exact ⟨here.1.2, here.1.1⟩
  have bare : IsBare (Region.kept .code body.toList) := by
    refine ⟨flat.mono (Region.subset_kept _ _), isCommentFree_kept _ _, fun c member blank => ?_⟩
    have here := plain c (Region.subset_kept _ _ member)
    simp only [isPlain, blank, Bool.and_eq_true, Bool.or_eq_true, beq_iff_eq] at here
    rcases here.2 with ((solid | rfl) | rfl) | rfl
    · cases solid
    all_goals rfl
  have lines : (clean body line).value = ofBody body line := rfl
  rw [lines, ofBody_kept flat,
    kinds_joinOpen (by simp) fun l member => isBare_of_mem_textLines bare member,
    kinds_textLines bare]
  exact Token.kinds_kept_iff flat true

/-- Comments behind a blank, at line ends and over several lines. -/
def sampleCommented : String := "int /* one */ a(int b, // two\n /* three\n */ int c);\n/**/int d();"

theorem kinds_clean_iff_sample :
    (clean sampleCommented 1).value.declarations.flatMap (·.kinds) =
      kinds sampleCommented.toList := by
  refine (kinds_clean_iff ?_ 1).mpr ?_
  · decide +kernel
  · decide +kernel

def fusedWords : String := "int/**/x"

/-- The words become one, which no token of the body is. -/
theorem not_kinds_fused : (∀ c ∈ fusedWords.toList, isPlain c = true) ∧
    (clean fusedWords 1).value.declarations.flatMap (·.kinds) = [.ident "intx"] ∧
      kinds fusedWords.toList = [.ident "int", .ident "x"] := by
  refine ⟨by decide, ?_, ?_⟩
  · decide +kernel
  · decide +kernel

end TableLines

end ScriptGlue
