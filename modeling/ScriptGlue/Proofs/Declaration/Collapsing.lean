import ScriptGlue.Proofs.Declaration.Outline
import ScriptGlue.Proofs.Source.Lockstep

/-!
# Reading collapsed lines

A declaration on a plain line may be read with its blanks or from the collapsed line. The tokens are
the same, so the reader goes the same way; only types show the blanks between their words, and they
show them no more once they are collapsed themselves.
-/
namespace ScriptGlue

open Token (Kind)
open Text (collapse IsTight)

/-! ### Types -/

/-- The text of a span without blanks at its ends. -/
theorem Declaration.textBetween_of_holds {source whole rest : List Char} {first last : Token}
    (holds : Span.Holds source ⟨first.span.start, last.span.stop, first.span.line⟩ whole rest)
    (tight : IsTight whole) : textBetween source first last = String.ofList whole := by
  rw [textBetween, Text.trim, Span.text, String.toList_ofList, holds.slice_eq, tight.trimChars_eq]

/-- The text between tokens of a source is collapsed to the text between those of the squeezed
one. -/
theorem Token.Moved.textBetween {source source' : List Char} {first first' last last' : Token}
    (moved : Moved source source' first first') (later : Moved source source' last last')
    (ordered : first.span.start ≤ last.span.start)
    (ordered' : first'.span.start ≤ last'.span.start) :
    IsTight (Declaration.textBetween source first last).toList ∧
      Declaration.textBetween source' first' last' =
        collapse (Declaration.textBetween source first last) := by
  obtain ⟨piece, rest, some, solid, holds, holds'⟩ := moved.held
  obtain ⟨piece₂, rest₂, some₂, solid₂, holds₂, holds₂'⟩ := later.held
  have tight {whole : List Char} (head : whole.head? = piece.head?)
      (final : whole.getLast? = piece₂.getLast?) : IsTight whole :=
    ⟨fun c member => solid c (List.mem_of_mem_head? (head ▸ member)),
      fun c member => solid₂ c (List.mem_of_getLast? (final ▸ member))⟩
  obtain ⟨whole, covers, head, final⟩ :=
    holds.exists_cover holds₂ some some₂ ordered first.span.line
  obtain ⟨whole', covers', head', final'⟩ :=
    holds'.exists_cover holds₂' some some₂ ordered' first'.span.line
  have filled : whole ≠ [] := by
    rintro rfl
    exact some (List.head?_eq_none_iff.mp head.symm)
  -- what is left from the first token on, parted behind the last one
  have squeezed : whole' = Text.squeeze false whole := by
    have left := holds'.drop_eq
    rw [covers'.drop_eq, ← Text.squeeze_false_append solid, ← holds.drop_eq, covers.drop_eq,
      Text.squeeze_append_tight filled (tight head final).last] at left
    exact List.append_cancel_right left
  have here := Declaration.textBetween_of_holds covers (tight head final)
  have there := Declaration.textBetween_of_holds covers' (tight head' final')
  have tightHere : IsTight (Declaration.textBetween source first last).toList := by
    rw [here, String.toList_ofList]
    exact tight head final
  refine ⟨tightHere, String.toList_injective ?_⟩
  rw [tightHere.toList_collapse, there, here, String.toList_ofList, String.toList_ofList, squeezed]

namespace Token.MovedRow

variable {source source' : List Char} {x y : Token × Token} {row : List (Token × Token)}

theorem start_le (moved : MovedRow source source' (x :: row)) (member : y ∈ x :: row) :
    x.1.span.start ≤ y.1.span.start ∧ x.2.span.start ≤ y.2.span.start := by
  rcases List.mem_cons.mp member with rfl | member
  · exact ⟨Nat.le_refl _, Nat.le_refl _⟩
  · obtain ⟨piece, rest, -, -, holds, holds'⟩ := (moved.each x List.mem_cons_self).held
    have before := List.rel_of_pairwise_cons moved.ordered (List.mem_map_of_mem member)
    have before' := List.rel_of_pairwise_cons moved.ordered' (List.mem_map_of_mem member)
    rw [holds.stop_eq] at before
    rw [holds'.stop_eq] at before'
    exact ⟨by omega, by omega⟩

/-- The text from the first token on is collapsed. -/
theorem textBetween (moved : MovedRow source source' (x :: row)) (member : y ∈ x :: row) :
    IsTight (Declaration.textBetween source x.1 y.1).toList ∧
      Declaration.textBetween source' x.2 y.2 =
        collapse (Declaration.textBetween source x.1 y.1) :=
  (moved.each x List.mem_cons_self).textBetween (moved.each y member) (moved.start_le member).1
    (moved.start_le member).2

end Token.MovedRow

/-! ### Arguments -/

/-- Arguments that differ in nothing but the blanks of their types. -/
structure Argument.Alike (a b : Argument) : Prop where
  name_eq : b.name = a.name
  size_eq : b.size = a.size
  isVariadic_eq : b.isVariadic = a.isVariadic
  type_eq : collapse b.type = collapse a.type

/-- Arguments of one shape are alike if what their tokens spell is. -/
theorem ArgumentShape.alike (shape : ArgumentShape) (index : Nat) {text text' : Nat → String}
    (spelled : ∀ n, IsTight (text n).toList ∧ text' n = collapse (text n)) :
    (shape.argument text index).Alike (shape.argument text' index) := by
  cases shape with
  | array name size lead =>
    have pointer (t : Nat → String) :
        (ArgumentShape.argument t index (.array name size lead)).type = t lead ++ "*" := rfl
    have starred : collapse (text lead ++ "*") = collapse (text lead) ++ "*" :=
      Text.collapse_concat (c := '*') (spelled lead).1 rfl
    refine ⟨rfl, rfl, rfl, ?_⟩
    rw [pointer, pointer, (spelled lead).2, ← starred, Text.collapse_collapse]
  | typed name lead =>
    have plain (t : Nat → String) :
        (ArgumentShape.argument t index (.typed name lead)).type = t lead := rfl
    refine ⟨rfl, rfl, rfl, ?_⟩
    rw [plain, plain, (spelled lead).2, Text.collapse_collapse]
  | variadic | callback | unreadable => exact ⟨rfl, rfl, rfl, rfl⟩

namespace Declaration

variable {source source' : List Char} {pairs : List (Token × Token)}

/-- A moved argument is read alike. -/
theorem argument_alike (moved : Token.MovedRow source source' pairs) (index : Nat) :
    (argument source index (pairs.map Prod.fst)).Alike
      (argument source' index (pairs.map Prod.snd)) := by
  cases pairs with
  | nil => exact ⟨rfl, rfl, rfl, rfl⟩
  | cons x row =>
    let last (n : Nat) : Token × Token := ((x :: row).take n).getLastD x
    have inside (n : Nat) : last n ∈ x :: row := by
      rcases List.mem_cons.mp (List.getLastD_mem_cons (l := (x :: row).take n) (a := x)) with
        first | taken
      · exact List.mem_cons.mpr (.inl first)
      · exact List.mem_of_mem_take taken
    have project (f : Token × Token → Token) (n : Nat) :
        ((f x :: row.map f).take n).getLastD (f x) = f (last n) := by
      rw [← List.map_cons, ← List.map_take, List.getLastD_map]
    have kinds : (x.2 :: row.map Prod.snd).map (·.kind) =
        (x.1 :: row.map Prod.fst).map (·.kind) := by
      rw [← List.map_cons, ← List.map_cons, List.map_map, List.map_map]
      exact moved.kinds_eq
    rw [List.map_cons, List.map_cons,
      argument_shape (fun n _ => congrArg _ (project Prod.fst n)) index,
      argument_shape (fun n _ => congrArg _ (project Prod.snd n)) index, kinds]
    exact ArgumentShape.alike _ index fun n => moved.textBetween (inside n)

/-- Moved arguments are read alike, one by one. -/
theorem arguments_alike (moved : Token.MovedRow source source' pairs) :
    List.Forall₂ Argument.Alike (arguments source (pairs.map Prod.fst))
      (arguments source' (pairs.map Prod.snd)) := by
  have parts : argumentParts (fun x => x.2.kind) pairs = argumentParts (fun x => x.1.kind) pairs :=
    argumentParts_congr fun x member => (moved.each x member).kind_eq
  rw [arguments_map, arguments_map, parts]
  refine List.forall₂_iff_get.mpr ⟨by simp, fun i inBounds _ => ?_⟩
  rw [List.length_mapIdx] at inBounds
  have isPart := infix_of_mem_argumentParts (List.getElem_mem inBounds)
  simpa using argument_alike (moved.sublist isPart.sublist) i

/-! ### Declarations -/

/-- Declarations that differ in nothing but the blanks of their types, and in the texts that they
quote. -/
structure Alike (d d' : Declaration) : Prop where
  name_eq : d'.name = d.name
  returnType_eq : collapse d'.returnType = collapse d.returnType
  args : List.Forall₂ Argument.Alike d.args d'.args

/-- Where a list of arguments ends can be told from kinds. -/
theorem enclosed_map_congr {α : Type} {f g : α → Token} {l : List α}
    (same : ∀ a ∈ l, (g a).kind = (f a).kind) {depth : Nat} {inner : List Token}
    (found : enclosed depth (l.map f) = some inner) :
    ∃ part, part <+: l ∧ inner = part.map f ∧ enclosed depth (l.map g) = some (part.map g) := by
  obtain ⟨close, rest, whole, closes, matched⟩ := enclosed_eq_some_iff.mp found
  obtain ⟨part, behind, rfl, rfl, marked⟩ := List.map_eq_append_iff.mp whole
  obtain ⟨a, later, rfl, rfl, -⟩ := List.map_eq_cons_iff.mp marked
  refine ⟨part, List.prefix_append part (a :: later), rfl, enclosed_eq_some_iff.mpr
    ⟨g a, later.map g, by simp, ?_, ?_⟩⟩
  · rw [same a (by simp), closes]
  · have kinds : (part.map g).map (·.kind) = (part.map f).map (·.kind) := by
      rw [List.map_map, List.map_map]
      exact List.map_congr_left fun b member => same b (List.mem_append_left _ member)
    rwa [kinds]

/-- Lists of arguments end at the same token, or neither ends. -/
theorem enclosed_moved (moved : Token.MovedRow source source' pairs) (depth : Nat) :
    enclosed depth (pairs.map Prod.fst) = none ∧ enclosed depth (pairs.map Prod.snd) = none ∨
      ∃ part, part <+: pairs ∧ enclosed depth (pairs.map Prod.fst) = some (part.map Prod.fst) ∧
        enclosed depth (pairs.map Prod.snd) = some (part.map Prod.snd) := by
  have same : ∀ x ∈ pairs, x.2.kind = x.1.kind := fun x member => (moved.each x member).kind_eq
  cases found : enclosed depth (pairs.map Prod.fst) with
  | some inner =>
    obtain ⟨part, isPrefix, rfl, found'⟩ := enclosed_map_congr same found
    exact .inr ⟨part, isPrefix, rfl, found'⟩
  | none =>
    refine .inl ⟨rfl, Option.eq_none_iff_forall_ne_some.mpr fun inner found' => ?_⟩
    obtain ⟨part, -, -, again⟩ := enclosed_map_congr (fun x member => (same x member).symm) found'
    rw [found] at again
    cases again

theorem takeWhile_moved (moved : Token.MovedRow source source' pairs) (p : Kind → Bool) :
    pairs.takeWhile (fun x => p x.2.kind) = pairs.takeWhile (fun x => p x.1.kind) ∧
      pairs.dropWhile (fun x => p x.2.kind) = pairs.dropWhile (fun x => p x.1.kind) := by
  induction pairs with
  | nil => exact ⟨rfl, rfl⟩
  | cons x row ih =>
    have rest := ih (moved.sublist (List.sublist_cons_self x row))
    simp only [List.takeWhile_cons, List.dropWhile_cons, rest,
      (moved.each x List.mem_cons_self).kind_eq, and_self]

/-- The reader goes the same way over a source and over the squeezed one. -/
theorem reader_lockstep (source source' : List Char) (text text' : String) (line : Nat) :
    Reader.Lockstep source source' Alike (reader source text line) (reader source' text' line) := by
  refine .bind .get fun s s' moved => ?_
  obtain ⟨pairs, row, tokens, tokens'⟩ := moved
  obtain ⟨run, later⟩ := takeWhile_moved row (·.isTypePart)
  rw [tokens, tokens', List.takeWhile_map, List.takeWhile_map, List.dropWhile_map,
    List.dropWhile_map]
  simp only [Function.comp_def, run, later]
  cases types : pairs.takeWhile (fun x => x.1.kind.isTypePart) with
  | nil => exact .bind .peek fun _ _ _ => .throw rfl
  | cons x r =>
    have inRow : x :: r <+: pairs := types ▸ List.takeWhile_prefix _
    have behind : pairs.dropWhile (fun x => x.1.kind.isTypePart) <:+ pairs :=
      List.dropWhile_suffix _
    obtain ⟨y, final⟩ : ∃ y, (x :: r).getLast? = some y :=
      ⟨_, List.getLast?_eq_some_getLast (List.cons_ne_nil x r)⟩
    have returns := (row.sublist inRow.sublist).textBetween (List.mem_of_getLast? final)
    simp only [List.head?_map, List.getLast?_map, final, List.head?_cons, Option.map_some]
    -- the marks before the arguments are told by kind, and the name is in the kind of its token
    refine .bind (.set ⟨_, row.sublist behind.sublist, rfl, rfl⟩) fun _ _ _ => ?_
    refine .bind (.expect _) fun _ _ _ => .bind (.expect _) fun _ _ _ => ?_
    refine .bind .expectName fun name _ same => same ▸ ?_
    refine .bind (.expect _) fun _ _ _ => .bind (.expect _) fun _ _ _ => ?_
    refine .bind .get fun t t' moved => ?_
    obtain ⟨ahead, row, tokens, tokens'⟩ := moved
    rw [tokens, tokens']
    rcases enclosed_moved row 0 with ⟨ends, ends'⟩ | ⟨part, inside, ends, ends'⟩
    · simp only [ends, ends']
      exact .throw rfl
    · simp only [ends, ends']
      refine .pure ⟨rfl, ?_, arguments_alike (row.sublist inside.sublist)⟩
      rw [returns.2, Text.collapse_collapse]

/-- Reading a plain line and reading the collapsed line come to the same: the tokens are of the same
kinds, and either both readings fail with faults that differ in nothing but their place, or both
succeed with declarations that differ in nothing but the blanks of their types. -/
theorem read_collapse {s : String} (plain : IsPlainLine s.toList) (text text' : String)
    (line : Nat) :
    (Token.scan (collapse s).toList line).all.map (·.kind) =
        (Token.scan s.toList line).all.map (·.kind) ∧
      ((∃ f f', read s text line = .error f ∧ read (collapse s) text' line = .error f' ∧
          f'.unplaced = f.unplaced ∧ f'.message = f.message) ∨
        ∃ d d', read s text line = .ok d ∧ read (collapse s) text' line = .ok d' ∧ d.Alike d') := by
  have moved := Token.stream_moved_scan plain line
  constructor
  · obtain ⟨pairs, row, tokens, tokens'⟩ := moved
    have kinds := row.kinds_eq
    simp only [Token.Stream.all, List.map_append, tokens, tokens', List.map_map, List.map_cons,
      List.map_nil]
    exact congrArg (· ++ _) kinds
  · have outcome := Reader.Lockstep.run'
      (reader_lockstep s.toList (collapse s).toList text text' line) moved
    rcases outcome.outcomes with ⟨f, f', fails, fails', same⟩ | ⟨d, d', done, done', alike⟩
    · refine .inl ⟨f, f', fails, fails', same, ?_⟩
      rw [← Fault.message_unplaced, same, Fault.message_unplaced]
    · exact .inr ⟨d, d', done, done', alike⟩

/-- A line with runs of blanks inside types, between arguments, in a comment and at its ends. -/
def sampleSpread : String := " const  char\t*\t(*pfnX)( int  a, float  * v[3] /* c  d */ );\r"

theorem read_collapse_spread :
    IsPlainLine sampleSpread.toList ∧
      collapse sampleSpread = "const char * (*pfnX)( int a, float * v[3] /* c d */ );" ∧
      ∃ d d', read sampleSpread "" 1 = .ok d ∧ read (collapse sampleSpread) "" 1 = .ok d' ∧
        d.Alike d' ∧ d.args.map (·.type) = ["int", "float  **"] ∧
          d'.args.map (·.type) = ["int", "float **"] := by
  have plain : IsPlainLine sampleSpread.toList := ⟨by decide +kernel, by decide +kernel⟩
  have types : (read sampleSpread "" 1).map (·.args.map (·.type)) = .ok ["int", "float  **"] := by
    decide +kernel
  have types' : (read (collapse sampleSpread) "" 1).map (·.args.map (·.type)) =
      .ok ["int", "float **"] := by
    decide +kernel
  refine ⟨plain, by decide +kernel, ?_⟩
  rcases (read_collapse plain "" "" 1).2 with ⟨f, f', fails, -⟩ | ⟨d, d', done, done', alike⟩
  · rw [fails] at types
    cases types
  · rw [done] at types
    rw [done'] at types'
    exact ⟨d, d', done, done', alike, Except.ok.inj types, Except.ok.inj types'⟩

end Declaration

end ScriptGlue
