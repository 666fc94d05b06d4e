import ScriptGlue.Proofs.Source.Matching
import ScriptGlue.Proofs.Source.Order
import ScriptGlue.Proofs.Table.Groups

/-!
# The extent of a table

The end of a table is found from the front of a header, by the name behind its brace; the brace that
opens it is found from there backwards. What lies between the two is cut into lines that have the
numbers which the header gives them.
-/
namespace ScriptGlue

open Token (Kind)

/-- A split of a list has its head in the middle or in front. -/
theorem exists_split_cons {α : Type} {a b : α} {r : List α} {p : List α → Prop} :
    (∃ front back, a :: r = front ++ b :: back ∧ p front) ↔
      (a = b ∧ p []) ∨ ∃ front back, r = front ++ b :: back ∧ p (a :: front) := by
  constructor
  · rintro ⟨front, back, whole, holds⟩
    cases front with
    | nil => exact .inl ⟨(List.cons.inj whole).1, holds⟩
    | cons c front =>
      obtain ⟨rfl, behind⟩ := List.cons.inj whole
      exact .inr ⟨front, back, behind, holds⟩
  · rintro (⟨rfl, holds⟩ | ⟨front, back, rfl, holds⟩)
    · exact ⟨[], r, rfl, holds⟩
    · exact ⟨a :: front, back, rfl, holds⟩

namespace TableLines

open Region (kept ofOpen)

/-! ### Braces -/

/-- What closes the declaration of a struct and names it. -/
def EndsStruct (name : String) (ks : List Kind) : Prop :=
  [.closeBrace, .ident name, .semicolon] <+: ks

/-- The tokens of a header around a table: the first end of a struct of the name, and the brace that
matches it. -/
structure TableExtent (name : String) (ts lead : List Token) (brace : Token) (inside : List Token)
    (close : Token) (rest : List Token) : Prop where
  whole : ts = lead ++ brace :: (inside ++ close :: rest)
  first : FirstAt (EndsStruct name) (ts.map (·.kind)) (lead.length + 1 + inside.length)
  opens : brace.kind = .openBrace
  matched : Matched .openBrace .closeBrace 0 (inside.map (·.kind))

theorem endsStruct_cons_iff {name : String} {a b c : Token} {r : List Token} :
    EndsStruct name ((a :: b :: c :: r).map (·.kind)) ↔
      a.kind = .closeBrace ∧ b.isNamed name ∧ c.kind = .semicolon := by
  rw [EndsStruct, Token.isNamed_iff]
  simp [List.cons_prefix_cons, eq_comm]

/-- The brace that closes a table is the first one behind which the name of the struct stands. -/
theorem closing?_eq_some_iff {name : String} {before ts : List Token} {close : Token}
    {out : List Token} : closing? name before ts = some (close, out) ↔
      ∃ front rest, ts = front ++ close :: rest ∧
        FirstAt (EndsStruct name) (ts.map (·.kind)) front.length ∧
        out = front.reverse ++ before := by
  -- with three tokens left, the end stands here (`case1`) or is looked for behind the first one
  -- (`case2`); with fewer it cannot stand anywhere
  fun_induction closing? name before ts with
  | case1 before a b c r ends =>
    have here := endsStruct_cons_iff (r := r).mpr ends
    constructor
    · intro found
      obtain ⟨rfl, rfl⟩ := Prod.mk.inj (Option.some.inj found)
      exact ⟨[], b :: c :: r, rfl, FirstAt.zero_iff.mpr here, rfl⟩
    · rintro ⟨front, rest, whole, first, rfl⟩
      cases front with
      | nil => rw [(List.cons.inj whole).1]; rfl
      | cons d front => exact absurd here (FirstAt.succ_iff.mp first).1
  | case2 before a b c r other ih =>
    have notHere := fun here => other (endsStruct_cons_iff (r := r).mp here)
    rw [ih]
    constructor
    · rintro ⟨front, rest, whole, first, rfl⟩
      exact ⟨a :: front, rest, congrArg (a :: ·) whole, FirstAt.succ_iff.mpr ⟨notHere, first⟩,
        by simp⟩
    · rintro ⟨front, rest, whole, first, rfl⟩
      cases front with
      | nil => exact absurd (FirstAt.zero_iff.mp first) notHere
      | cons d front =>
        obtain ⟨rfl, behind⟩ := List.cons.inj whole
        exact ⟨front, rest, behind, (FirstAt.succ_iff.mp first).2, by simp⟩
  | case3 ts before short =>
    refine ⟨fun found => (by cases found), ?_⟩
    rintro ⟨front, rest, whole, ⟨ends, -⟩, -⟩
    have length := ends.length_le
    match ts with
    | [] | [_] | [_, _] =>
      simp only [List.length_drop, List.length_map, List.length_cons, List.length_nil] at length
      omega
    | a :: b :: c :: r => exact absurd rfl (short a b c r)

/-- Backwards, the braces that close blocks are met before those that open them. -/
theorem opening?_eq_some_iff {depth : Nat} {ts : List Token} {brace : Token} :
    opening? depth ts = some brace ↔ ∃ inside lead, ts = inside ++ brace :: lead ∧
      brace.kind = .openBrace ∧ Matched .closeBrace .openBrace depth (inside.map (·.kind)) := by
  have apart : Kind.closeBrace ≠ .openBrace := by decide
  fun_induction opening? depth ts with
  | case1 => simp
  | case2 depth t r isClose ih =>
    refine ih.trans (Iff.trans ?_ exists_split_cons.symm)
    simp only [List.map_cons, isClose, Matched.open_iff apart]
    refine (or_iff_right ?_).symm
    rintro ⟨rfl, opens, -⟩
    exact apart (isClose.symm.trans opens)
  | case3 t r isOpen =>
    refine Iff.trans ?_ exists_split_cons.symm
    simp only [List.map_cons, List.map_nil, isOpen, Matched.not_close apart, Matched.nil_iff,
      and_false, exists_false, or_false, Option.some.injEq, and_true]
    exact ⟨fun same => ⟨same, same ▸ isOpen⟩, fun found => found.1⟩
  | case4 t r depth isOpen ih =>
    refine ih.trans (Iff.trans ?_ exists_split_cons.symm)
    simp only [List.map_cons, List.map_nil, isOpen, Matched.close_iff apart, Matched.nil_iff]
    refine (or_iff_right ?_).symm
    rintro ⟨-, -, none⟩
    cases none
  | case5 depth t r notClose zero succ ih =>
    have notOpen : t.kind ≠ .openBrace := by
      intro isOpen
      cases depth with
      | zero => exact zero isOpen rfl
      | succ depth => exact succ depth isOpen rfl
    refine ih.trans (Iff.trans ?_ exists_split_cons.symm)
    simp only [List.map_cons, Matched.other_iff notClose notOpen]
    refine (or_iff_right ?_).symm
    rintro ⟨rfl, opens, -⟩
    exact notOpen opens

/-- A body is found exactly if the first end of a struct of the name has a brace that matches it. -/
theorem body?_eq_some_iff {header : String} {table : Table} {body : String} {line : Nat} :
    body? header table = some (body, line) ↔ ∃ lead brace inside close rest,
      TableExtent table.structName (Token.scan header.toList 1).tokens lead brace inside close
          rest ∧
        body = Span.text ⟨brace.span.stop, close.span.start, brace.span.line⟩ header.toList ∧
        line = brace.span.line := by
  constructor
  · intro found
    obtain ⟨⟨close, before⟩, closed, found⟩ := Option.bind_eq_some_iff.mp found
    obtain ⟨brace, opened, found⟩ := Option.bind_eq_some_iff.mp found
    obtain ⟨rfl, rfl⟩ := Prod.mk.inj (Option.some.inj found)
    obtain ⟨front, rest, whole, first, rfl⟩ := closing?_eq_some_iff.mp closed
    obtain ⟨inside, lead, split, opens, matched⟩ := opening?_eq_some_iff.mp opened
    rw [List.append_nil] at split
    obtain rfl : front = lead.reverse ++ brace :: inside.reverse := by
      rw [← List.reverse_reverse front, split]
      simp
    refine ⟨lead.reverse, brace, inside.reverse, close, rest, ⟨?_, ?_, opens, ?_⟩, rfl, rfl⟩
    · rw [whole]
      simp
    · convert first using 1
      simp
      omega
    · refine Matched.reverse_iff.mp ?_
      rwa [List.map_reverse, List.reverse_reverse]
  · rintro ⟨lead, brace, inside, close, rest, extent, rfl, rfl⟩
    have closed : closing? table.structName [] (Token.scan header.toList 1).tokens =
        some (close, (lead ++ brace :: inside).reverse) := by
      refine closing?_eq_some_iff.mpr ⟨lead ++ brace :: inside, rest, ?_, ?_, by simp⟩
      · rw [extent.whole]
        simp
      · convert extent.first using 1
        simp
        omega
    have opened : opening? 0 (lead ++ brace :: inside).reverse = some brace := by
      refine opening?_eq_some_iff.mpr ⟨inside.reverse, lead.reverse, by simp, extent.opens, ?_⟩
      rw [List.map_reverse]
      exact extent.matched.reverse
    exact Option.bind_eq_some_iff.mpr
      ⟨_, closed, Option.bind_eq_some_iff.mpr ⟨_, opened, rfl⟩⟩

/-- The source around the two braces of a table. -/
structure BracesCut (source front body back : List Char) (brace close : Token) : Prop where
  whole : source = front ++ '{' :: (body ++ '}' :: back)
  brace_start : brace.span.start = front.length
  close_start : close.span.start = front.length + 1 + body.length
  line_eq : brace.span.line = 1 + front.count '\n'

/-- The text between the braces of a table is cut out of the source as it stands. -/
theorem exists_bracesCut {name : String} {source : List Char} {lead inside rest : List Token}
    {brace close : Token}
    (extent : TableExtent name (Token.scan source 1).tokens lead brace inside close rest) :
    ∃ front body back, BracesCut source front body back brace close ∧
      Span.text ⟨brace.span.stop, close.span.start, brace.span.line⟩ source =
        String.ofList body := by
  have isBrace : brace ∈ (Token.scan source 1).tokens := by simp [extent.whole]
  have isClose : close ∈ (Token.scan source 1).tokens := by simp [extent.whole]
  have closes : close.kind = .closeBrace := by
    have ends := extent.first.1
    rw [extent.whole] at ends
    simp only [List.map_append, List.map_cons] at ends
    -- what stands in front of the closing brace is as long as the place where the struct ends
    have front : lead.length + 1 + inside.length =
        (lead.map (·.kind) ++ brace.kind :: inside.map (·.kind)).length := by
      simp
      omega
    rw [front, ← List.cons_append, ← List.append_assoc, List.drop_left] at ends
    exact (List.cons_prefix_cons.mp ends).1.symm
  obtain ⟨cutBrace, stopBrace, insideBrace⟩ :=
    Token.cut_at_mark isBrace (.inl rfl) extent.opens
  obtain ⟨cutClose, stopClose, insideClose⟩ := Token.cut_at_mark isClose (.inr (.inl rfl)) closes
  have ordered : brace.span.stop ≤ close.span.start := by
    have all := Token.ordered_scanFrom (Place.first 1) source
    rw [← Token.scan, extent.whole] at all
    have behind := (List.pairwise_append.mp all).2.1
    exact List.rel_of_pairwise_cons behind (by simp)
  have between : source.drop brace.span.stop =
      (source.drop brace.span.stop).take (close.span.start - brace.span.stop) ++
        '}' :: source.drop close.span.stop := by
    have upTo : source.drop close.span.start = '}' :: source.drop close.span.stop := by
      conv => lhs; rw [cutClose]
      rw [List.drop_append_of_le_length (by simp; omega), List.drop_take_self]
      rfl
    conv => lhs; rw [← List.take_append_drop (close.span.start - brace.span.stop)
      (source.drop brace.span.stop)]
    rw [List.drop_drop, Nat.add_sub_cancel' ordered, upTo]
  have located := Token.located_scan isBrace
  refine ⟨source.take brace.span.start,
    (source.drop brace.span.stop).take (close.span.start - brace.span.stop),
    source.drop close.span.stop, ⟨?_, ?_, ?_, located.line_eq⟩, ?_⟩
  · rw [← between]
    exact cutBrace
  · rw [List.length_take]
    omega
  · rw [List.length_take, List.length_take, List.length_drop]
    omega
  · rw [Span.text, Span.slice_of_le ordered]

/-! ### Lines -/

/-- A line of a text, and what is left of it when the text loses its comments. -/
structure LineLeft (region : Region) (text before part after left : List Char) : Prop where
  whole : text = before ++ (part ++ after)
  starts : ∀ c ∈ before.getLast?, c = '\n'
  ends : ∀ c ∈ after.head?, c = '\n'
  unbroken : '\n' ∉ part
  left_eq : kept region (before ++ part) = kept region before ++ left

/-- A line of a table starts on a line of its header: with what is left, without comments and
trimmed, of the part of that line which is inside the body. The braces stand behind `front` and
behind the body. -/
def StartsOn (front body : List Char) (l : SourceLine) : Prop :=
  ∃ before part after left, LineLeft .code body before part after left ∧
    Text.trimChars left ≠ [] ∧ Text.trimChars left <+: l.text.toList ∧
    l.line = 1 + (front ++ '{' :: before).count '\n'

theorem mem_keptLine {l : SourceLine} {line : Nat} {s : List Char} (member : l ∈ keptLine line s) :
    Text.trimChars s ≠ [] ∧ l.text.toList = Text.trimChars s ∧ l.line = line := by
  rw [keptLine_trim] at member
  split at member
  · cases member
  · rename_i some
    obtain rfl := List.mem_singleton.mp member
    exact ⟨some, String.toList_ofList, rfl⟩

/-- What is left of a text without comments has its lines where the text has them. -/
theorem exists_lineLeft {s : List Char} {inBlock : Bool} {line : Nat} {l : SourceLine}
    (member : l ∈ textLines line (kept (ofOpen inBlock) s)) :
    ∃ before part after left, LineLeft (ofOpen inBlock) s before part after left ∧
      Text.trimChars left ≠ [] ∧ l.text.toList = Text.trimChars left ∧
      l.line = line + before.count '\n' := by
  induction s using Text.line_induction generalizing inBlock line with
  | last a clean =>
    have unbroken : '\n' ∉ kept (ofOpen inBlock) a := fun inside =>
      clean (Region.subset_kept _ _ inside)
    rw [textLines_last unbroken] at member
    refine ⟨[], a, [], _, ⟨by simp, by simp, by simp, clean, ?_⟩, mem_keptLine member⟩
    rw [Region.kept_nil]
    rfl
  | line a b clean ih =>
    have unbroken : '\n' ∉ (stripComments inBlock a).2 := fun inside =>
      clean (mem_of_mem_stripComments inside)
    have along (t : List Char) : kept (ofOpen inBlock) (a ++ '\n' :: t) =
        (stripComments inBlock a).2 ++ '\n' :: kept (ofOpen (stripComments inBlock a).1) t := by
      rw [Region.kept_strip clean (by simp), Region.kept_feed]
    rw [along, textLines_line unbroken] at member
    rcases List.mem_append.mp member with here | later
    · refine ⟨[], a, '\n' :: b, _, ⟨rfl, by simp, by simp, clean, ?_⟩, mem_keptLine here⟩
      rw [Region.kept_nil, strip_eq clean]
      rfl
    · obtain ⟨before, part, after, left, found, some, text, number⟩ := ih later
      refine ⟨a ++ '\n' :: before, part, after, left, ⟨?_, ?_, found.ends, found.unbroken, ?_⟩,
        some, text, ?_⟩
      · rw [found.whole]
        simp
      · cases before with
        | nil => simp
        | cons c r =>
          rw [List.getLast?_append_of_ne_nil _ (by simp), List.getLast?_cons_cons]
          exact found.starts
      · rw [List.append_assoc, List.cons_append, along, along, found.left_eq]
        simp
      · rw [number, List.count_append, List.count_cons_self, List.count_eq_zero_of_not_mem clean]
        omega

/-- What begins with a line of a table, and has its number, starts where that line does. -/
theorem startsOn_of_mem {front body : List Char} {m l : SourceLine}
    (member : m ∈ textLines (1 + front.count '\n') (kept (ofOpen false) body))
    (begins : m.text.toList <+: l.text.toList) (number : l.line = m.line) :
    StartsOn front body l := by
  obtain ⟨before, part, after, left, found, some, text, line⟩ :=
    exists_lineLeft member
  refine ⟨before, part, after, left, found, some, text ▸ begins, ?_⟩
  have brace : '{' ≠ '\n' := by decide
  rw [number, line, List.count_append, List.count_cons_of_ne brace]
  omega

/-- A group starts with its first line. -/
theorem JoinedFrom.exists_first {group : List SourceLine} {d : SourceLine}
    (joined : JoinedFrom group d) :
    ∃ m ∈ group, m.text.toList <+: d.text.toList ∧ d.line = m.line := by
  obtain ⟨m, r, rfl⟩ := List.exists_cons_of_ne_nil joined.nonempty
  refine ⟨m, List.mem_cons_self, ?_, (Option.some.inj joined.line_eq).symm⟩
  rw [joined.text_eq, List.map_cons]
  cases r with
  | nil => simp
  | cons n r =>
    rw [List.map_cons, String.intercalate_cons_cons, String.toList_append, String.toList_append,
      List.append_assoc]
    exact List.prefix_append _ _

/-- Every declaration is joined from a group. -/
theorem exists_group {groups : List (List SourceLine)} {ds : List SourceLine} {d : SourceLine}
    (joined : List.Forall₂ JoinedFrom groups ds) (member : d ∈ ds) :
    ∃ group ∈ groups, JoinedFrom group d := by
  induction joined with
  | nil => cases member
  | cons here later ih =>
    rcases List.mem_cons.mp member with rfl | member
    · exact ⟨_, List.mem_cons_self, here⟩
    · obtain ⟨group, inside, found⟩ := ih member
      exact ⟨group, List.mem_cons_of_mem _ inside, found⟩

/-- Every line of a table starts on the line of the source that it is numbered with. -/
theorem startsOn_ofBody {front body : List Char} {l : SourceLine}
    (member : l ∈ (ofBody (String.ofList body) (1 + front.count '\n')).declarations ++
      (ofBody (String.ofList body) (1 + front.count '\n')).skipped) : StartsOn front body l := by
  rw [ofBody_lines, String.toList_ofList] at member
  rcases List.mem_append.mp member with declared | skipped
  · obtain ⟨groups, flat, joined, -⟩ := joinOpen_groups [] ((textLines (1 + front.count '\n')
      (kept .code body)).filter (·.text.toList.head? ≠ some '#')) (by simp)
    obtain ⟨group, inside, made⟩ := exists_group joined declared
    obtain ⟨m, first, begins, number⟩ := made.exists_first
    have among : m ∈ groups.flatten := List.mem_flatten_of_mem inside first
    rw [flat] at among
    exact startsOn_of_mem (List.mem_filter.mp among).1 begins number
  · exact startsOn_of_mem (List.mem_filter.mp skipped).1 (List.prefix_refl _) rfl

/-- A table is found exactly if the first end of a struct of its name has a brace that matches it.
Then its body is the source between the two braces, and each of its lines has the number of the
line of the header on which it starts. -/
theorem ofHeader_extent (header : String) (table : Table) :
    ((∃ lines, ofHeader header table = .ok lines) ↔ ∃ lead brace inside close rest,
      TableExtent table.structName (Token.scan header.toList 1).tokens lead brace inside close
        rest) ∧
    ∀ lines, ofHeader header table = .ok lines → ∃ lead brace inside close rest front body back,
      TableExtent table.structName (Token.scan header.toList 1).tokens lead brace inside close
          rest ∧
        BracesCut header.toList front body back brace close ∧
        lines = clean (String.ofList body) brace.span.line ∧
        ∀ l ∈ lines.value.declarations ++ lines.value.skipped, StartsOn front body l := by
  constructor
  · constructor
    · rintro ⟨lines, done⟩
      rw [ofHeader] at done
      split at done
      · rename_i found
        obtain ⟨lead, brace, inside, close, rest, extent, -⟩ := body?_eq_some_iff.mp found
        exact ⟨lead, brace, inside, close, rest, extent⟩
      · cases done
    · rintro ⟨lead, brace, inside, close, rest, extent⟩
      have found := body?_eq_some_iff.mpr ⟨lead, brace, inside, close, rest, extent, rfl, rfl⟩
      rw [ofHeader, found]
      exact ⟨_, rfl⟩
  · intro lines done
    rw [ofHeader] at done
    split at done
    · rename_i found
      cases done
      obtain ⟨lead, brace, inside, close, rest, extent, rfl, rfl⟩ := body?_eq_some_iff.mp found
      obtain ⟨front, body, back, cut, text⟩ := exists_bracesCut extent
      rw [text]
      refine ⟨lead, brace, inside, close, rest, front, body, back, extent, cut, rfl, ?_⟩
      intro l member
      rw [cut.line_eq] at member
      exact startsOn_ofBody member
    · cases done

/-- The brace that matches is not the nearest one, and a comment in front of it counts its lines. -/
example : (ofHeader "/*\n*/ typedef struct \x7b int (*f)( /* a\n*/ struct \x7b \x7d b,\nint c ); \x7d
DLL_FUNCTIONS;" .dll).map (·.value) =
    .ok ⟨[⟨"int (*f)( struct \x7b \x7d b, int c );", 2⟩], []⟩ := by
  decide +kernel

end TableLines

end ScriptGlue
