import ScriptGlue.Proofs.Access.Scanning
import ScriptGlue.Proofs.Access.Windows
import ScriptGlue.Proofs.Table.Extent

/-!
# Reading tables by position

The braces of a table are found by index: forwards the one that closes it, and from there backwards
the one that opens it. Behind the closing one, at least one brace is open until the match is met.
-/
namespace ScriptGlue

open Checked (item minus)
open Checked.Step (loop loop_done loop_next)

namespace ByPosition

/-! ### Lines -/

/-- Takes one character of a line, given whether a block comment is open and what has been kept. -/
def stripStep : Checked.Step (Bool × List Char × List Char) (Bool × List Char)
  | (inBlock, kept, []) => pure (.inr (inBlock, kept))
  | (true, kept, c :: r) =>
    if c = '*' ∧ r.head? = some '/' then pure (.inl (false, kept, r.tail))
    else pure (.inl (true, kept, r))
  | (false, kept, c :: r) =>
    match c, r.head? with
    | '/', some '*' => pure (.inl (true, kept, r.tail))
    | '/', some '/' => pure (.inr (false, kept))
    | _, _ => pure (.inl (false, kept ++ [c], r))

/-- What has been found in the lines so far. -/
structure Cleaning where
  inBlock : Bool
  /-- Lines that leave a parenthesis open. -/
  pending : Option SourceLine
  lines : TableLines

def Cleaning.take (s : Cleaning) (l : SourceLine) : Cleaning :=
  if l.text.isEmpty then s
  else if TableLines.isDirective l then
    { s with lines := { s.lines with skipped := s.lines.skipped ++ [l] } }
  else
    let joined := TableLines.joinLine s.pending l
    if 0 < TableLines.parenBalance joined.text.toList then { s with pending := some joined }
    else
      let declarations := s.lines.declarations ++ [joined]
      { s with pending := none, lines := { s.lines with declarations := declarations } }

/-- Takes the lines of a body one by one, counted from `line` on. -/
def cleanFrom (s : Cleaning) (line : Nat) : List (List Char) → Checked TableLines
  | [] => pure { s.lines with declarations := s.lines.declarations ++ s.pending.toList }
  | raw :: r => do
    let (inBlock, kept) ← loop stripStep (s.inBlock, [], raw)
    let t := Cleaning.take { s with inBlock := inBlock } ⟨String.ofList (Text.trimChars kept), line⟩
    cleanFrom t (line + 1) r

/-- The lines of a body whose first line has the given number. -/
def cleanLines (body : String) (firstLine : Nat) : Checked TableLines :=
  cleanFrom ⟨false, none, ⟨[], []⟩⟩ firstLine (Text.lineChars body.toList)

/-- Taking characters one by one drops the comments of a line. -/
theorem strip_eq (inBlock : Bool) (s kept : List Char) :
    loop stripStep (inBlock, kept, s) =
      pure ((TableLines.stripComments inBlock s).1,
        kept ++ (TableLines.stripComments inBlock s).2) := by
  fun_induction TableLines.stripComments inBlock s generalizing kept with
  | case1 inBlock => exact loop_done (by simp [stripStep])
  | case2 r ih => exact (loop_next rfl).trans (ih kept)
  | case3 c r stays ih =>
    have notClosed : ¬ (c = '*' ∧ r.head? = some '/') := by
      rintro ⟨rfl, next⟩
      obtain ⟨rest, rfl⟩ := List.head?_eq_some_iff.mp next
      exact stays rest rfl rfl
    have inside : stripStep (true, kept, c :: r) = pure (.inl (true, kept, r)) :=
      if_neg notClosed
    exact (loop_next inside).trans (ih kept)
  | case4 r ih => exact (loop_next rfl).trans (ih kept)
  | case5 r => exact loop_done (by simp [stripStep])
  | case6 c r noBlock noLine inBlock rest stripped ih =>
    have plain : stripStep (false, kept, c :: r) = pure (.inl (false, kept ++ [c], r)) := by
      rw [stripStep]
      · intro slash next
        obtain ⟨rest, rfl⟩ := List.head?_eq_some_iff.mp next
        exact noBlock rest slash rfl
      · intro slash next
        obtain ⟨rest, rfl⟩ := List.head?_eq_some_iff.mp next
        exact noLine rest slash rfl
    rw [loop_next plain, ih, stripped, List.append_assoc]
    rfl

namespace Cleaning

/-- What is found in all once more lines with some content follow. -/
def append (s : Cleaning) (content : List SourceLine) : TableLines where
  declarations := s.lines.declarations ++
    TableLines.joinOpen s.pending (content.filter (!TableLines.isDirective ·))
  skipped := s.lines.skipped ++ content.filter TableLines.isDirective

theorem take_inBlock (s : Cleaning) (l : SourceLine) : (s.take l).inBlock = s.inBlock := by
  rw [take]
  split
  · rfl
  split
  · rfl
  · dsimp only
    split <;> rfl

theorem take_empty (s : Cleaning) {l : SourceLine} (empty : l.text.isEmpty = true) :
    s.take l = s :=
  if_pos empty

theorem take_append (s : Cleaning) {l : SourceLine} (filled : l.text.isEmpty = false)
    (content : List SourceLine) : (s.take l).append content = s.append (l :: content) := by
  rw [take, filled, if_neg Bool.false_ne_true]
  by_cases directive : TableLines.isDirective l = true
  · simp [append, directive]
  · have kept : (l :: content).filter (!TableLines.isDirective ·) =
        l :: content.filter (!TableLines.isDirective ·) :=
      List.filter_cons_of_pos (by simp [directive])
    rw [if_neg directive, append, append, kept, List.filter_cons_of_neg directive,
      TableLines.joinOpen]
    dsimp only
    split
    · rfl
    · simp

end Cleaning

/-- Going through the lines once finds what is found by going through them for each purpose. -/
theorem cleanFrom_eq (s : Cleaning) (line : Nat) (raws : List (List Char)) :
    cleanFrom s line raws = pure (s.append
      ((TableLines.numbered line (TableLines.stripAll s.inBlock raws)).filter
        (!·.text.isEmpty))) := by
  induction raws generalizing s line with
  | nil => simp [cleanFrom, Cleaning.append, TableLines.numbered, TableLines.stripAll,
      TableLines.joinOpen]
  | cons raw r ih =>
    rw [cleanFrom, strip_eq, List.nil_append, pure_bind]
    dsimp only
    rw [ih, Cleaning.take_inBlock, TableLines.stripAll, TableLines.numbered]
    generalize SourceLine.mk _ line = l
    by_cases empty : l.text.isEmpty = true
    · rw [Cleaning.take_empty _ empty, List.filter_cons_of_neg (by rw [empty]; decide)]
      rfl
    · rw [Cleaning.take_append _ (Bool.eq_false_iff.mpr empty),
        List.filter_cons_of_pos (by simpa using empty)]
      rfl

theorem cleanLines_eq (body : String) (firstLine : Nat) :
    cleanLines body firstLine = pure (TableLines.clean body firstLine).value := by
  rw [cleanLines, cleanFrom_eq]
  rfl

/-! ### Braces -/

/-- What marks the end of a struct of the given name. -/
def closeTests (name : String) : List (Token → Bool) :=
  [(·.kind = .closeBrace), (·.isNamed name), (·.kind = .semicolon)]

/-- Goes back from the given number of tokens to the brace that leaves no other open. -/
def openIndex (tokens : List Token) : Nat → Nat → Checked (Option Nat)
  | 0, _ => pure none
  | i + 1, depth => do
    let t ← item tokens i
    match t.kind with
    | .closeBrace => openIndex tokens i (depth + 1)
    | .openBrace =>
      let fewer ← minus depth 1
      if fewer = 0 then return some i else openIndex tokens i fewer
    | _ => openIndex tokens i depth

def braces (name : String) (tokens : List Token) : Checked (Option (Token × Token)) := do
  match ← firstMatch (closeTests name) tokens with
  | none => return none
  | some close =>
    match ← openIndex tokens (close + 1) 0 with
    | none => return none
    | some brace => return some (← item tokens brace, ← item tokens close)

def tableLines (header : String) (table : Table) : Checked (Except Fault TableLines) := do
  let source := header.toList
  let tokens ← tokens source 1
  match ← braces table.structName tokens with
  | none => return .error (.missingTable table.structName)
  | some (brace, close) =>
    let body ← slice source ⟨brace.span.stop, close.span.start, brace.span.line⟩
    return .ok (← cleanLines (String.ofList body) brace.span.line)

/-- Going back by index, at least one block is open at every brace, and the index found is that of
the brace that opens the innermost one. -/
theorem openIndex_eq (tokens : List Token) (depth : Nat) {i : Nat} (inside : i ≤ tokens.length) :
    ∃ found : Option (Fin tokens.length),
      openIndex tokens i (depth + 1) = pure (found.map (·.val)) ∧
      TableLines.opening? depth (tokens.take i).reverse = found.map (tokens[·]) := by
  induction i generalizing depth with
  | zero => exact ⟨none, rfl, rfl⟩
  | succ i ih =>
    have here : tokens[i]? = some tokens[i] := List.getElem?_eq_getElem inside
    have back : (tokens.take (i + 1)).reverse = tokens[i] :: (tokens.take i).reverse := by
      rw [List.take_succ_eq_append_getElem inside, List.reverse_concat]
    have smaller : i ≤ tokens.length := Nat.le_of_succ_le inside
    have fewer : minus (depth + 1) 1 = pure depth := Checked.minus_eq (Nat.le_add_left 1 depth)
    rw [openIndex, Checked.item_eq here, pure_bind, back, TableLines.opening?.eq_def]
    dsimp only
    cases kind : tokens[i].kind with
    | closeBrace => exact ih (depth + 1) smaller
    | openBrace =>
      dsimp only
      rw [fewer, pure_bind]
      cases depth with
      | zero => exact ⟨some ⟨i, inside⟩, rfl, rfl⟩
      | succ depth => exact ih depth smaller
    | _ => exact ih depth smaller

/-- The brace that closes a table is found by index. -/
theorem closing?_eq (name : String) (before ts : List Token) :
    TableLines.closing? name before ts = (matchIndex (closeTests name) ts).bind fun i =>
      ts[i]?.map fun close => (close, (ts.take i).reverse ++ before) := by
  fun_induction TableLines.closing? name before ts with
  | case1 before a b c r marks =>
    have starts : startsWith (closeTests name) (a :: b :: c :: r) = true := by
      simpa [startsWith, closeTests] using marks
    rw [matchIndex_of_startsWith starts]
    rfl
  | case2 before a b c r noMarks ih =>
    have fails : startsWith (closeTests name) (a :: b :: c :: r) = false := by
      simpa [startsWith, closeTests] using noMarks
    rw [ih, matchIndex_cons fails, Option.bind_map]
    exact congrArg (Option.bind _) (funext fun i => by simp)
  | case3 ts before short =>
    have few : ts.length < (closeTests name).length := by
      rcases ts with _ | ⟨a, _ | ⟨b, _ | ⟨c, r⟩⟩⟩
      case cons.cons.cons => exact absurd rfl (short a b c r)
      all_goals simp [closeTests]
    rw [matchIndex_of_length_lt few]
    rfl

/-- The braces that are found by index are those found without one. -/
theorem braces_eq (name : String) (s : Token.Stream) : braces name s.all =
    pure ((TableLines.closing? name [] s.tokens).bind fun (close, before) =>
      (TableLines.opening? 0 before).map (·, close)) := by
  have filled : closeTests name ≠ [] := by simp [closeTests]
  have fails : ∀ test ∈ closeTests name, ∀ stop, test ⟨.stop, stop⟩ = false := by
    simp [closeTests, Token.isNamed, Token.name?, Token.Kind.name?]
  rw [braces, firstMatch_eq filled, pure_bind, matchIndex_all filled fails, closing?_eq]
  cases found : matchIndex (closeTests name) s.tokens with
  | none => rfl
  | some close =>
    have marks := startsWith_of_matchIndex found
    have inside : close + 3 ≤ s.tokens.length := matchIndex_le filled found
    have here : s.tokens[close]? = some s.tokens[close] := List.getElem?_eq_getElem (by omega)
    have closes : s.tokens[close].kind = .closeBrace := by
      rw [List.drop_eq_getElem_cons (by omega)] at marks
      simp only [closeTests, startsWith, Bool.and_eq_true, decide_eq_true_eq] at marks
      exact marks.1
    have closeItem : item s.all close = pure s.tokens[close] := by
      refine Checked.item_eq ?_
      rw [Token.Stream.all, List.getElem?_append_left (by omega), here]
    obtain ⟨brace, back, opened⟩ := openIndex_eq s.all 0 (i := close)
      (by rw [Token.Stream.all, List.length_append]; omega)
    have before : s.all.take close = s.tokens.take close :=
      List.take_append_of_le_length (by omega)
    rw [before] at opened
    -- the way back starts at the closing brace, so one block is open from there on
    have first : openIndex s.all (close + 1) 0 = pure (brace.map (·.val)) := by
      rw [openIndex, closeItem, pure_bind, closes]
      exact back
    simp only [first, pure_bind, here, Option.bind_some, Option.map_some, List.append_nil, opened]
    cases brace with
    | none => rfl
    | some i =>
      have openItem : item s.all i = pure s.all[i] :=
        Checked.item_eq (List.getElem?_eq_getElem i.isLt)
      simp only [Option.map_some, openItem, closeItem, pure_bind]

/-- The lines of a table are found by index. -/
theorem tableLines_eq (header : String) (table : Table) : tableLines header table =
    pure ((TableLines.ofHeader header table).map (·.value)) := by
  rw [tableLines, tokens_eq, pure_bind, braces_eq, pure_bind, TableLines.ofHeader, TableLines.body?]
  dsimp only
  cases TableLines.closing? table.structName [] (Token.scan header.toList 1).tokens with
  | none => rfl
  | some found =>
    obtain ⟨close, before⟩ := found
    cases opened : TableLines.opening? 0 before with
    | none =>
      simp only [Option.bind_eq_bind, Option.bind_some, opened, Option.map_none]
      rfl
    | some brace =>
      simp only [Option.bind_eq_bind, Option.bind_some, opened, Option.map_some, slice_eq,
        pure_bind, cleanLines_eq]
      rfl

end ByPosition

end ScriptGlue
