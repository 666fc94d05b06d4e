import ScriptGlue.Proofs.Declaration.Chunks
import ScriptGlue.Proofs.Source.Reader
import ScriptGlue.Proofs.Source.Row

/-!
# Shapes of arguments

What an argument is depends on the kinds of its tokens alone, and not on what its literals say; only
its type is a piece of the source, and one that stands at the front of the argument. So the
arguments of a row of words can be told from the row.
-/
namespace ScriptGlue

open Token (Kind)

/-! ### Shapes -/

/-- What follows the first `( *`. -/
def afterMark : List Kind → Option (List Kind)
  | a :: b :: r => if a = .openParen ∧ b = .star then some r else afterMark (b :: r)
  | _ => none

/-- The name of a function pointer whose `( *` has been passed. -/
def markedName? : List Kind → Option String
  | .ident name :: .closeParen :: _ => some name
  | _ => none

/-- The name, the length and the number of leading tokens of `TYPE name[N]`. -/
def arrayName? (ks : List Kind) : Option (String × Nat × Nat) :=
  match ks.reverse with
  | close :: size :: bracket :: name :: lead =>
    if bracket = .openBracket ∧ close = .closeBracket ∧ lead ≠ [] ∧ lead.all (·.isTypePart) then
      match name.name?, size.toNat? with
      | some name, some size => some (name, size, lead.length)
      | _, _ => none
    else none
  | _ => none

/-- Whether a kind is a word that only qualifies the type after it. -/
def isQualifier (k : Kind) : Bool := k.name?.any Declaration.qualifiers.contains

/-- What an argument is, as far as the kinds of its tokens tell. A type is spelled by the first
`lead` of its tokens. -/
inductive ArgumentShape where
  | variadic
  | callback (name : Option String)
  | array (name : String) (size lead : Nat)
  | typed (name : Option String) (lead : Nat)
  | unreadable
  deriving DecidableEq, Repr

namespace ArgumentShape

/-- Whether identifiers and stars are one identifier with at most one star behind it. -/
def isLone (ks : List Kind) : Bool :=
  let stars := ks.countP (· = .star)
  decide (ks.length - stars = 1 ∧ stars ≤ 1 ∧ (ks.head?.bind (·.name?)).isSome)

def ofRun (ks : List Kind) : ArgumentShape :=
  if isLone ks then .typed none ks.length
  else
    match ks.getLast?.bind (·.name?) with
    | some name =>
      if !Declaration.typeWords.contains name && !ks.dropLast.all isQualifier then
        .typed (some name) (ks.length - 1)
      else .typed none ks.length
    | none => .typed none ks.length

def ofKinds (ks : List Kind) : ArgumentShape :=
  if ks = [.ellipsis] then .variadic
  else
    match afterMark ks with
    | some rest => .callback (markedName? rest)
    | none =>
      match arrayName? ks with
      | some (name, size, lead) => .array name size lead
      | none => if !ks.isEmpty && ks.all (·.isTypePart) then ofRun ks else .unreadable

/-- The argument of a shape; `text n` is what its first `n` tokens spell. -/
def argument (text : Nat → String) (index : Nat) : ArgumentShape → Argument
  | variadic => .variadic
  | callback name => .fixed { name := name.getD s!"callback{index}", type := "void*" }
  | array name size lead =>
    .fixed { name := name, type := s!"{text lead}*", size := some size }
  | typed name lead => .fixed { name := name.getD s!"value{index}", type := text lead }
  | unreadable => .fixed { name := s!"value{index}", type := "void*" }

end ArgumentShape

/-- An array is words and stars, then a name with a number in brackets. -/
theorem arrayName?_eq_some_iff {ks : List Kind} {name : String} {n count : Nat} :
    arrayName? ks = some (name, n, count) ↔
      ∃ lead size, ks = lead ++ [.ident name, .openBracket, size, .closeBracket] ∧ lead ≠ [] ∧
        lead.all (·.isTypePart) = true ∧ size.toNat? = some n ∧ lead.length = count := by
  constructor
  · intro found
    unfold arrayName? at found
    split at found
    · rename_i close size bracket word lead reversed
      split at found
      · rename_i form
        obtain ⟨rfl, rfl, ne, parts⟩ := form
        split at found
        · rename_i name' size' named sized
          cases found
          obtain rfl := Token.Kind.name?_eq_some_iff.mp named
          refine ⟨lead.reverse, size, ?_, by simpa using ne, by simpa using parts, sized,
            List.length_reverse⟩
          rw [← List.reverse_reverse ks, reversed]
          simp
        · cases found
      · cases found
    · cases found
  · rintro ⟨lead, size, rfl, ne, parts, sized, rfl⟩
    have reversed : (lead ++ [.ident name, .openBracket, size, .closeBracket]).reverse =
        .closeBracket :: size :: .openBracket :: .ident name :: lead.reverse := by
      simp
    rw [arrayName?, reversed]
    simpa [ne, sized, Kind.name?] using parts

/-! ### Literals

No shape depends on what a literal says. -/

section Outline

open Word (outline)

theorem outline_eq_iff {k p : Kind} (plain : ∀ value, p ≠ .literal value) :
    outline k = p ↔ k = p := by
  cases k with
  | literal value =>
    have differs : Kind.literal "" ≠ p := fun same => plain "" same.symm
    have differs' : Kind.literal value ≠ p := fun same => plain value same.symm
    simp [outline, differs, differs']
  | _ => rfl

@[simp] theorem name?_outline (k : Kind) : (outline k).name? = k.name? := by
  cases k <;> rfl

@[simp] theorem toNat?_outline (k : Kind) : (outline k).toNat? = k.toNat? := by
  cases k <;> rfl

@[simp] theorem isTypePart_outline (k : Kind) : (outline k).isTypePart = k.isTypePart := by
  cases k <;> rfl

@[simp] theorem isQualifier_outline (k : Kind) : isQualifier (outline k) = isQualifier k := by
  cases k <;> rfl

theorem map_outline_eq_singleton {ks : List Kind} {p : Kind}
    (plain : ∀ value, p ≠ .literal value) : ks.map outline = [p] ↔ ks = [p] := by
  cases ks with
  | nil => simp
  | cons k r => simp [outline_eq_iff plain]

theorem eq_of_map_outline {ks ps : List Kind} (plain : ∀ p ∈ ps, ∀ value, p ≠ .literal value)
    (same : ks.map outline = ps) : ks = ps := by
  induction ks generalizing ps with
  | nil => exact same
  | cons k r ih =>
    cases ps with
    | nil => cases same
    | cons p ps =>
      obtain ⟨first, rest⟩ := List.cons.inj same
      rw [(outline_eq_iff (plain p List.mem_cons_self)).mp first,
        ih (fun q member => plain q (List.mem_cons_of_mem _ member)) rest]

theorem all_isTypePart_outline (ks : List Kind) :
    (ks.map outline).all (·.isTypePart) = ks.all (·.isTypePart) := by
  simp [List.all_map, Function.comp_def]

theorem isBalanced_outline (depth : Nat) (ks : List Kind) :
    isBalanced depth (ks.map outline) = isBalanced depth ks := by
  induction ks generalizing depth with
  | nil => rfl
  | cons k r ih => cases k <;> simp only [List.map_cons, outline, isBalanced, ih]

theorem isCommaFree_outline (depth : Nat) (ks : List Kind) :
    isCommaFree depth (ks.map outline) = isCommaFree depth ks := by
  induction ks generalizing depth with
  | nil => rfl
  | cons k r ih => cases k <;> simp only [List.map_cons, outline, isCommaFree, ih]

theorem afterMark_outline (ks : List Kind) :
    afterMark (ks.map outline) = (afterMark ks).map (List.map outline) := by
  fun_induction afterMark ks with
  | case1 a b r mark => simp [afterMark, mark, outline]
  | case2 a b r mark ih =>
    have noMark : ¬ (outline a = .openParen ∧ outline b = .star) := by
      rwa [outline_eq_iff (by simp), outline_eq_iff (by simp)]
    simpa [afterMark, noMark] using ih
  | case3 ks short =>
    cases ks with
    | nil => rfl
    | cons a r =>
      cases r with
      | nil => rfl
      | cons b r => exact absurd rfl (short a b r)

theorem markedName?_outline (ks : List Kind) : markedName? (ks.map outline) = markedName? ks := by
  cases ks with
  | nil => rfl
  | cons a r =>
    cases r with
    | nil => cases a <;> rfl
    | cons b r => cases a <;> cases b <;> rfl

theorem arrayName?_outline (ks : List Kind) : arrayName? (ks.map outline) = arrayName? ks := by
  rw [arrayName?, arrayName?, ← List.map_reverse]
  match ks.reverse with
  | close :: size :: bracket :: name :: lead =>
    simp only [List.map_cons, outline_eq_iff (p := .openBracket) (by simp),
      outline_eq_iff (p := .closeBracket) (by simp), name?_outline, toNat?_outline,
      List.length_map, ne_eq, List.map_eq_nil_iff, all_isTypePart_outline]
  | [] | [_] | [_, _] | [_, _, _] => rfl

theorem ArgumentShape.ofRun_outline (ks : List Kind) :
    ArgumentShape.ofRun (ks.map outline) = ArgumentShape.ofRun ks := by
  have stars : (ks.map outline).countP (· = .star) = ks.countP (· = .star) := by
    rw [List.countP_map]
    apply List.countP_congr
    intro k member
    simp [outline_eq_iff (p := .star)]
  have first : ((ks.map outline).head?.bind (·.name?)) = ks.head?.bind (·.name?) := by
    cases ks <;> simp
  have last : ((ks.map outline).getLast?.bind (·.name?)) = ks.getLast?.bind (·.name?) := by
    rw [List.getLast?_map]
    cases ks.getLast? <;> simp
  have lead : (ks.map outline).dropLast.all isQualifier = ks.dropLast.all isQualifier := by
    simp [← List.map_dropLast, List.all_map, Function.comp_def]
  rw [ofRun, ofRun, isLone, isLone, stars, first, last, lead, List.length_map]

theorem ArgumentShape.ofKinds_outline (ks : List Kind) :
    ArgumentShape.ofKinds (ks.map outline) = ArgumentShape.ofKinds ks := by
  simp only [ofKinds, map_outline_eq_singleton (p := .ellipsis) (by simp), afterMark_outline,
    arrayName?_outline, ofRun_outline, all_isTypePart_outline, List.isEmpty_map]
  cases afterMark ks with
  | none => rfl
  | some rest => simp only [Option.map_some, markedName?_outline]

end Outline

/-! ### Arguments -/

def argumentParts {α : Type} (kind : α → Kind) (l : List α) : List (List α) :=
  (if l.isEmpty then [] else commaChunks kind 0 l).filter fun c => c.map kind ≠ [.ident "void"]

theorem argumentParts_congr {α : Type} {kind kind' : α → Kind} {l : List α}
    (same : ∀ a ∈ l, kind a = kind' a) : argumentParts kind l = argumentParts kind' l := by
  rw [argumentParts, argumentParts, commaChunks_congr same]
  apply List.filter_congr
  intro c member
  split at member
  · cases member
  · have inside := (infix_of_mem_commaChunks member).subset
    rw [List.map_congr_left fun a here => same a (inside here)]

theorem infix_of_mem_argumentParts {α : Type} {kind : α → Kind} {l c : List α}
    (member : c ∈ argumentParts kind l) : c <:+: l := by
  have kept := (List.mem_filter.mp member).1
  split at kept
  · cases kept
  · exact infix_of_mem_commaChunks kept

namespace Row

/-- The type that the first words of a row spell. -/
def lead (row : Row) (n : Nat) : String := String.ofList (inner (row.take n))

def argument (index : Nat) (row : Row) : Argument :=
  (ArgumentShape.ofKinds row.kinds).argument row.lead index

def arguments (row : Row) : List Argument :=
  ((if row.isEmpty then [] else commaChunks (·.word.kind) 0 row).filter
    fun c => kinds c ≠ [.ident "void"]).mapIdx argument

/-- The chunks that arguments are read from, where words are parts of other things. -/
def argumentChunks {α : Type} (f : α → SpacedWord) (l : List α) : List (List α) :=
  (if l.isEmpty then [] else commaChunks (fun a => (f a).word.kind) 0 l).filter
    fun c => kinds (c.map f) ≠ [.ident "void"]

theorem arguments_map {α : Type} (f : α → SpacedWord) (l : List α) :
    arguments (l.map f) = (argumentChunks f l).mapIdx fun i c => argument i (c.map f) := by
  rw [arguments, argumentChunks, List.isEmpty_map, commaChunks_map]
  cases l with
  | nil => rfl
  | cons a r =>
    rw [List.isEmpty_cons, if_neg (by decide), if_neg (by decide), List.filter_map]
    apply List.ext_getElem?
    intro i
    simp only [List.getElem?_mapIdx, List.getElem?_map, Option.map_map, Function.comp_def]

theorem argumentChunks_eq {α : Type} (f : α → SpacedWord) (l : List α) :
    argumentChunks f l = argumentParts (fun a => (f a).word.kind) l := by
  simp only [argumentParts, argumentChunks, kinds, List.map_map, Function.comp_def]

theorem infix_of_mem_argumentChunks {α : Type} {f : α → SpacedWord} {l c : List α}
    (member : c ∈ argumentChunks f l) : c <:+: l := by
  rw [argumentChunks_eq] at member
  exact infix_of_mem_argumentParts member

end Row

/-! ### Shapes of tokens -/

namespace Declaration

theorem afterPointerMark_map (ts : List Token) :
    (afterPointerMark ts).map (List.map (·.kind)) = afterMark (ts.map (·.kind)) := by
  fun_induction afterPointerMark ts with
  | case1 a b r mark => simp [afterMark, mark]
  | case2 a b r mark ih => simpa [afterMark, mark] using ih
  | case3 ts short =>
    cases ts with
    | nil => rfl
    | cons a r =>
      cases r with
      | nil => rfl
      | cons b r => exact absurd rfl (short a b r)

theorem pointerName?_eq (ts : List Token) : pointerName? ts = markedName? (ts.map (·.kind)) := by
  cases ts with
  | nil => rfl
  | cons t r =>
    cases r with
    | nil => rw [List.map_cons, List.map_nil]; cases t.kind <;> rfl
    | cons close r =>
      rw [List.map_cons, List.map_cons, pointerName?, Token.name?]
      cases hk : t.kind <;> cases hc : close.kind <;> rfl

theorem isTypeRun_eq (ts : List Token) :
    isTypeRun ts = (!(ts.map (·.kind)).isEmpty && (ts.map (·.kind)).all (·.isTypePart)) := by
  rw [isTypeRun, List.isEmpty_map, List.all_map]
  rfl

theorem onlyQualifiers_eq (ts : List Token) :
    onlyQualifiers ts = (ts.map (·.kind)).all isQualifier := by
  rw [List.all_map]
  rfl

theorem arrayName?_lead {ks : List Kind} {parts : String × Nat × Nat}
    (found : arrayName? ks = some parts) : 0 < parts.2.2 ∧ parts.2.2 + 4 = ks.length := by
  obtain ⟨lead, size, rfl, ne, -, -, length⟩ := arrayName?_eq_some_iff.mp found
  rw [← length, List.length_append]
  exact ⟨List.length_pos_iff.mpr ne, rfl⟩

/-- An array is told from its last four tokens and its type from those before. -/
theorem arrayParts?_append (lead : List Token) (name bracket size close : Token) :
    arrayParts? (lead ++ [name, bracket, size, close]) =
      (arrayName? ((lead ++ [name, bracket, size, close]).map (·.kind))).map
        fun (name, n, count) => (name, n, lead.take count) := by
  have reversed : (lead ++ [name, bracket, size, close]).reverse =
      close :: size :: bracket :: name :: lead.reverse := by
    simp
  have run : isTypeRun lead = true ↔ lead ≠ [] ∧ lead.all (·.kind.isTypePart) = true := by
    simp [isTypeRun]
  rw [arrayParts?, arrayName?, ← List.map_reverse, reversed]
  simp only [List.map_cons, List.map_reverse, List.reverse_reverse, run, ne_eq,
    List.reverse_eq_nil_iff, List.map_eq_nil_iff, List.all_reverse, List.all_map,
    Function.comp_def, Token.name?, List.length_reverse, List.length_map]
  split
  · cases name.kind.name? with
    | none => rfl
    | some name =>
      cases size.kind.toNat? with
      | none => rfl
      | some size => simp
  · rfl

theorem arrayParts?_eq (ts : List Token) :
    arrayParts? ts =
      (arrayName? (ts.map (·.kind))).map fun (name, size, n) => (name, size, ts.take n) := by
  obtain ⟨rs, rfl⟩ : ∃ rs, ts = rs.reverse := ⟨ts.reverse, ts.reverse_reverse.symm⟩
  match rs with
  | close :: size :: bracket :: name :: r =>
    have whole : (close :: size :: bracket :: name :: r).reverse =
        r.reverse ++ [name, bracket, size, close] := by
      simp
    rw [whole, arrayParts?_append]
    cases found : arrayName? ((r.reverse ++ [name, bracket, size, close]).map (·.kind)) with
    | none => rfl
    | some parts =>
      obtain ⟨n, length, count⟩ := parts
      have bound := (arrayName?_lead found).2
      simp only [List.map_append, List.length_append, List.length_map, List.map_cons, List.map_nil,
        List.length_cons, List.length_nil] at bound
      have inside : count ≤ r.reverse.length := by omega
      simp only [Option.map_some, List.take_append_of_le_length inside]
  | [] | [_] | [_, _] | [_, _, _] => simp [arrayParts?, arrayName?]

/-- The text between the first and the last token of a row. -/
theorem textBetween_eq {source : List Char} {row : Row} {ts : List Token}
    (covers : Row.Covers source row ts) {first last : Token} (head : ts.head? = some first)
    (final : ts.getLast? = some last) :
    textBetween source first last = String.ofList row.inner := by
  have none : ∀ c ∈ ([] : List Char), Text.isBlank c = true := by simp
  have trimmed := Text.trimChars_append none none row.head?_inner_solid row.getLast?_inner_solid
  rw [List.nil_append, List.append_nil] at trimmed
  rw [textBetween, Text.trim, Span.text, String.toList_ofList, covers.text_eq head final, trimmed]

/-- The text of some leading tokens. -/
theorem textBetween_take {source : List Char} {row : Row} {ts : List Token}
    (covers : Row.Covers source row ts) {first : Token} (head : ts.head? = some first) {n : Nat}
    (pos : n ≠ 0) : textBetween source first ((ts.take n).getLastD first) = row.lead n := by
  have frontHead : (ts.take n).head? = some first := by
    rw [List.head?_take, if_neg pos, head]
  cases final : (ts.take n).getLast? with
  | none => simp [List.getLast?_eq_none_iff.mp final] at frontHead
  | some last =>
    rw [List.getLastD_eq_getLast?, final, Option.getD_some, Row.lead]
    exact textBetween_eq (covers.take n) frontHead final

theorem isEllipsis_iff (first : Token) (r : List Token) :
    ((first :: r).length = 1 ∧ first.kind = .ellipsis) ↔
      (first :: r).map (·.kind) = [.ellipsis] := by
  constructor
  · rintro ⟨one, ellipsis⟩
    have empty : r = [] := by simpa using one
    simp [empty, ellipsis]
  · intro single
    simp only [List.map_cons, List.cons.injEq, List.map_eq_nil_iff] at single
    exact ⟨by rw [single.2]; rfl, single.1⟩

/-- A run that ends in a name and is no lone word has tokens before the name. -/
theorem length_sub_one_ne_zero {first last : Token} {r : List Token} {name : String}
    (final : (first :: r).getLast? = some last) (named : last.name? = some name)
    (several : ¬ ((first :: r).length - ((first :: r).map (·.kind)).countP (· = .star) = 1 ∧
      ((first :: r).map (·.kind)).countP (· = .star) ≤ 1 ∧
        (((first :: r).map (·.kind)).head?.bind (·.name?)).isSome = true)) :
    (first :: r).length - 1 ≠ 0 := by
  intro single
  obtain rfl : r = [] := by simpa using single
  obtain rfl : first = last := by simpa using final
  exact several (by simp [Token.name?_eq_some_iff.mp named, Kind.name?])

/-- What an argument is depends on the kinds of its tokens; its type is spelled by the text from the
first of them to the last one that the type takes. -/
theorem argument_shape {source : List Char} {first : Token} {r : List Token} {text : Nat → String}
    (spelled : ∀ n, n ≠ 0 →
      textBetween source first (((first :: r).take n).getLastD first) = text n) (index : Nat) :
    argument source index (first :: r) =
      (ArgumentShape.ofKinds ((first :: r).map (·.kind))).argument text index := by
  obtain ⟨last, final⟩ : ∃ last, (first :: r).getLast? = some last :=
    ⟨_, List.getLast?_eq_some_getLast (List.cons_ne_nil first r)⟩
  have allText : textBetween source first last = text (first :: r).length := by
    rw [← spelled _ (by simp), List.take_length, List.getLastD_eq_getLast?, final, Option.getD_some]
  rw [argument, final, ArgumentShape.ofKinds]
  simp only [List.head?_cons, isEllipsis_iff]
  by_cases dots : (first :: r).map (·.kind) = [.ellipsis]
  · rw [if_pos dots, if_pos dots]
    rfl
  rw [if_neg dots, if_neg dots, ← afterPointerMark_map]
  cases afterPointerMark (first :: r) with
  | some rest => simp [ArgumentShape.argument, pointerName?_eq]
  | none =>
    rw [arrayParts?_eq]
    cases array : arrayName? ((first :: r).map (·.kind)) with
    | some parts =>
      obtain ⟨name, size, n⟩ := parts
      have pos := Nat.ne_of_gt (arrayName?_lead array).1
      simp only [Option.map_some, Option.map_none, ArgumentShape.argument, spelled n pos]
    | none =>
      rw [isTypeRun_eq]
      cases run : (!((first :: r).map (·.kind)).isEmpty &&
        ((first :: r).map (·.kind)).all (·.isTypePart)) with
      | false => rfl
      | true =>
        have stars : (first :: r).countP (·.kind = .star) =
            ((first :: r).map (·.kind)).countP (· = .star) := by
          rw [List.countP_map]
          rfl
        have ends : (((first :: r).map (·.kind)).getLast?.bind (·.name?)) = last.name? := by
          rw [List.getLast?_map, final]
          rfl
        have lead : onlyQualifiers (first :: r).dropLast =
            ((first :: r).map (·.kind)).dropLast.all isQualifier := by
          rw [onlyQualifiers_eq, List.map_dropLast]
        have start : first.name? = ((first :: r).map (·.kind)).head?.bind (·.name?) := rfl
        simp only [Bool.not_true, Bool.false_eq_true, if_false, if_true, Option.map_none,
          ArgumentShape.ofRun, ArgumentShape.isLone, decide_eq_true_eq, stars, ends, lead, start,
          List.length_map]
        split
        · rw [allText]
          rfl
        · rename_i several
          cases named : last.name? with
          | none =>
            rw [allText]
            rfl
          | some name =>
            simp only
            split
            · rw [List.dropLast_eq_take, spelled _ (length_sub_one_ne_zero final named several)]
              rfl
            · rw [allText]
              rfl

/-- An argument is what the row of its tokens spells. -/
theorem argument_eq {source : List Char} {row : Row} {ts : List Token}
    (covers : Row.Covers source row ts) (index : Nat) :
    argument source index ts = row.argument index := by
  cases ts with
  | nil =>
    have empty : row = [] := List.length_eq_zero_iff.mp covers.length_eq.symm
    rw [empty]
    rfl
  | cons first r =>
    rw [Row.argument, ← covers.kinds_eq]
    exact argument_shape (fun n pos => textBetween_take covers rfl pos) index

theorem isLoneVoid_eq (ts : List Token) :
    isLoneVoid ts = decide (ts.map (·.kind) = [.ident "void"]) := by
  unfold isLoneVoid
  split
  · rename_i t
    rw [Token.isNamed, Bool.eq_iff_iff, beq_iff_eq, Token.name?_eq_some_iff, decide_eq_true_iff]
    simp
  · rename_i several
    have noSingle : ¬ ts.map (·.kind) = [.ident "void"] := by
      intro single
      obtain ⟨t, rfl⟩ := List.length_eq_one_iff.mp (by simpa using congrArg List.length single)
      exact several t rfl
    simp [noSingle]

/-- The chunks of arguments depend on the kinds of tokens alone. -/
theorem argumentParts_map {α : Type} (f : α → Token) (l : List α) :
    (chunks (l.map f)).filter (!isLoneVoid ·) =
      (argumentParts (fun a => (f a).kind) l).map (List.map f) := by
  rw [chunks, argumentParts, List.isEmpty_map]
  by_cases empty : l.isEmpty = true
  · rw [if_pos empty, if_pos empty]
    rfl
  · rw [if_neg empty, if_neg empty, splitCommas_eq, commaChunks_map, List.filter_map]
    congr 1
    apply List.filter_congr
    intro c member
    rw [Function.comp_apply, isLoneVoid_eq, List.map_map, decide_not]
    rfl

/-- Arguments read from tokens that are parts of other things. -/
theorem arguments_map {α : Type} (source : List Char) (f : α → Token) (l : List α) :
    arguments source (l.map f) =
      (argumentParts (fun a => (f a).kind) l).mapIdx fun i c => argument source i (c.map f) := by
  rw [arguments, argumentParts_map]
  apply List.ext_getElem?
  intro i
  simp only [List.getElem?_mapIdx, List.getElem?_map, Option.map_map, Function.comp_def]

/-- Arguments are what the row of their tokens spells. -/
theorem arguments_eq {source : List Char} {row : Row} {ts : List Token}
    (covers : Row.Covers source row ts) : arguments source ts = row.arguments := by
  obtain ⟨pairs, rfl, rfl⟩ : ∃ pairs : List (SpacedWord × Token),
      row = pairs.map Prod.fst ∧ ts = pairs.map Prod.snd :=
    ⟨row.zip ts, by simp [List.map_fst_zip, covers.length_eq],
      by simp [List.map_snd_zip, covers.length_eq]⟩
  have kinds : ∀ a ∈ pairs, a.2.kind = a.1.word.kind := by
    have same := covers.kinds_eq
    rw [Row.kinds, List.map_map, List.map_map, List.map_inj_left] at same
    exact same
  have parts : argumentParts (fun a => a.2.kind) pairs = Row.argumentChunks Prod.fst pairs := by
    rw [argumentParts_congr kinds, Row.argumentChunks_eq]
  rw [arguments_map, Row.arguments_map, parts]
  apply List.ext_getElem?
  intro i
  simp only [List.getElem?_mapIdx]
  cases found : (Row.argumentChunks Prod.fst pairs)[i]? with
  | none => rfl
  | some c =>
    have inside := covers.of_infix (Row.infix_of_mem_argumentChunks (List.mem_of_getElem? found))
    simp only [Option.map_some, argument_eq inside]

end Declaration

end ScriptGlue
