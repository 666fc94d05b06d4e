import ScriptGlue.Proofs.Access.Hooks
import ScriptGlue.Proofs.Declaration.TypeWords
import ScriptGlue.Proofs.Hook.Numbering
import ScriptGlue.Proofs.Hook.Printing
import ScriptGlue.Proofs.Source.Integers

/-!
# Quantities

Integers are read for the lengths of arrays, for the numbers of parameters that rows declare and for
the values of enumerators. What is read is the signed value of a token of the source, and where the
token has none, nothing is read. No such value is negative, so nothing ever stands in for one.
-/
namespace ScriptGlue

open Token (Kind)

/-! ### Lengths of arrays -/

/-- A parameter of words and stars, a name, and the given length in brackets. -/
def StatesLength (ks : List Kind) (n : Nat) : Prop :=
  ∃ lead name size, ks = lead ++ [.ident name, .openBracket, size, .closeBracket] ∧ lead ≠ [] ∧
    lead.all (·.isTypePart) = true ∧ size.toInt? = some (n : Int)

namespace ArgumentShape

theorem ofRun_ne_array (ks : List Kind) (name : String) (n lead : Nat) :
    ofRun ks ≠ .array name n lead := by
  rcases ofRun_cases ks with ⟨_, _, -, -, -, same⟩ | ⟨-, same⟩ <;> simp [same]

/-- Nothing but an array is told as one. -/
theorem ofKinds_eq_array_iff {ks : List Kind} {name : String} {n lead : Nat} :
    ofKinds ks = .array name n lead ↔ arrayName? ks = some (name, n, lead) := by
  refine ⟨fun array => ?_, ofKinds_of_arrayName?⟩
  unfold ofKinds at array
  split at array
  · cases array
  · split at array
    · cases array
    · split at array
      · rename_i found
        cases array
        exact found
      · split at array
        · exact absurd array (ofRun_ne_array ks name n lead)
        · cases array

theorem size_argument {shape : ArgumentShape} {text : Nat → String} {index n : Nat} :
    (shape.argument text index).size = some n ↔ ∃ name lead, shape = .array name n lead := by
  cases shape <;> simp [argument, Argument.size]

end ArgumentShape

namespace Declaration

variable {source : List Char} {line : Nat}

/-- A chunk of tokens is told by its shape, whatever its type is spelled by. -/
theorem exists_argument_shape (source : List Char) (index : Nat) (chunk : List Token) :
    ∃ text, argument source index chunk =
      (ArgumentShape.ofKinds (chunk.map (·.kind))).argument text index := by
  cases chunk with
  | nil => exact ⟨fun _ => "void*", rfl⟩
  | cons first r => exact ⟨_, argument_shape (fun _ _ => rfl) index⟩

/-- An argument has the length that is written for it. -/
theorem size_argument_iff {chunk : List Token} (inside : chunk <:+: (Token.scan source line).tokens)
    (index n : Nat) :
    (argument source index chunk).size = some n ↔ StatesLength (chunk.map (·.kind)) n := by
  obtain ⟨text, same⟩ := exists_argument_shape source index chunk
  have signless {size : Kind} (member : size ∈ chunk.map (·.kind)) :
      size.toInt? = some (n : Int) ↔ size.toNat? = some n := by
    obtain ⟨t, among, rfl⟩ := List.mem_map.mp member
    exact Token.toInt?_eq_some_iff (inside.subset among)
  rw [same, ArgumentShape.size_argument]
  simp only [ArgumentShape.ofKinds_eq_array_iff, arrayName?_eq_some_iff]
  constructor
  · rintro ⟨name, count, lead, size, whole, ne, parts, sized, -⟩
    exact ⟨lead, name, size, whole, ne, parts, (signless (by simp [whole])).mpr sized⟩
  · rintro ⟨lead, name, size, whole, ne, parts, sized⟩
    exact ⟨name, _, lead, size, whole, ne, parts, (signless (by simp [whole])).mp sized, rfl⟩

/-- The arguments of a declaration are those between its brackets, each with the length that is
written for it, if one is. -/
def LengthsStated (d : Declaration) (source : String) (line : Nat) : Prop :=
  ∃ run name args cut, HasForm (Token.scan source.toList line).tokens run name args ∧
    IsCut args cut ∧ List.Forall₂
      (fun chunk a => ∀ n, Argument.size a = some n ↔ StatesLength (chunk.map (·.kind)) n)
      (cut.filter (·.map (·.kind) ≠ [.ident "void"])) d.args

theorem lengthsStated_of_read {source text : String} {line : Nat} {d : Declaration}
    (done : read source text line = .ok d) : d.LengthsStated source line := by
  obtain ⟨s', taken⟩ := read_eq_ok_iff.mp done
  obtain ⟨run, name, args, first, last, form, -, -, same⟩ := exists_form taken
  have listed : d.args = arguments source.toList args := by
    rw [same]
  rw [arguments_chunks] at listed
  refine ⟨run, name, args, chunks args, form, isCut_chunks form.matched, ?_⟩
  rw [listed, List.forall₂_iff_get]
  refine ⟨List.length_mapIdx.symm, fun i bound _ n => ?_⟩
  simp only [List.get_eq_getElem, List.getElem_mapIdx]
  have among := (List.mem_filter.mp (List.getElem_mem bound)).1
  exact size_argument_iff (form.chunk_infix among) i n

end Declaration

/-! ### Tokens -/

/-- A token that has no negative value, and whose value alone is taken for a number of parameters or
behind an equals sign. -/
structure Token.TakenExactly (t : Token) : Prop where
  value : t.kind.toInt? = t.kind.toNat?.map fun n : Nat => (n : Int)
  sign : ∀ n ∈ t.kind.toInt?, 0 ≤ n
  count : ∀ (r : List Token) (stop : Span) (n : Nat) (s : Token.Stream),
    Hook.paramCount ⟨t :: r, stop⟩ = .ok (n, s) ↔ t.kind.toInt? = some (n : Int) ∧ s = ⟨r, stop⟩
  explicit : ∀ (mark : Token) (r : List Token) (stop : Span) (next n : Nat) (s : Token.Stream),
    mark.kind = .equals → (Hook.explicitValue next ⟨mark :: t :: r, stop⟩ = .ok (n, s) ↔
      t.kind.toInt? = some (n : Int) ∧ s = ⟨r, stop⟩)

namespace Token

variable {source : List Char} {line : Nat} {t : Token}

theorem takenExactly (member : t ∈ (scan source line).tokens) : t.TakenExactly where
  value := toInt?_eq member
  sign n among := by
    rw [toInt?_eq member] at among
    obtain ⟨m, -, rfl⟩ := Option.map_eq_some_iff.mp among
    exact Int.natCast_nonneg m
  count r stop n s := by
    rw [Hook.paramCount_ok_iff, toInt?_eq_some_iff member]
    constructor
    · rintro ⟨first, whole, reads⟩
      cases whole
      exact ⟨reads, rfl⟩
    · rintro ⟨reads, rfl⟩
      exact ⟨t, rfl, reads⟩
  explicit mark r stop next n s equals := by
    rw [toInt?_eq_some_iff member]
    constructor
    · intro done
      rcases Hook.explicitValue_cases next (mark :: t :: r) stop with ⟨other, -⟩ |
        ⟨_, _, _, m, whole, -, reads, same⟩ | ⟨expected, found, span, same⟩
      · exact absurd equals (other mark rfl)
      · cases whole
        cases same.symm.trans done
        exact ⟨reads, rfl⟩
      · cases same.symm.trans done
    · rintro ⟨reads, rfl⟩
      exact Hook.explicitValue_some equals reads

end Token

namespace Hook

/-! ### Numbers of parameters -/

/-- A row among tokens declares as many parameters as a signature has it. -/
def StatesCount (tokens : List Token) (s : Signature) : Prop :=
  ∃ brace key comma code comma' count, [brace, key, comma, code, comma', count] <:+: tokens ∧
    brace.kind = .openBrace ∧ brace.span.line = s.line ∧ key.literal? = some s.key ∧
    comma.kind = .comma ∧ comma'.kind = .comma ∧ count.kind.toInt? = some (s.declaredCount : Int)

section

variable {source : List Char} {line : Nat} {s s' : Token.Stream}

/-- A row that is read states the number of parameters that its signature has. -/
theorem statesCount_of_row {brace : Token} {r : List Token} {stop : Span} {signature : Signature}
    (inside : brace :: r <:+ (Token.scan source line).tokens) (opens : brace.kind = .openBrace)
    (done : row brace.span.line ⟨r, stop⟩ = .ok (some signature, s')) :
    StatesCount (Token.scan source line).tokens signature := by
  obtain ⟨sameLine, key, comma, code, comma', count, behind, name, rfl, literal, isComma, -, -,
    isComma', reads⟩ := row_lead done
  have window : [brace, key, comma, code, comma', count] <:+: (Token.scan source line).tokens :=
    (List.prefix_append _ behind).isInfix.trans inside.isInfix
  refine ⟨brace, key, comma, code, comma', count, window, opens, sameLine.symm, literal, isComma,
    isComma', ?_⟩
  exact (Token.toInt?_eq_some_iff (window.subset (by simp))).mpr reads

/-- Each row is read where it stands, and what it leaves is the end of the tokens. -/
theorem statesCount_of_rows {array : String} {signatures : List Signature}
    (inside : s.tokens <:+ (Token.scan source line).tokens)
    (done : rows array s = .ok signatures) :
    ∀ signature ∈ signatures, StatesCount (Token.scan source line).tokens signature := by
  fun_induction rows array s generalizing signatures with
  | case1 => cases done
  | case2 t r stop closes =>
    cases done
    simp
  | case3 => cases done
  | case4 t r stop notClose opens signature s' taken ih =>
    have left := (ByPosition.row_tracks t.span.line).suffix taken
    have later := left.trans ((List.suffix_cons t r).trans inside)
    cases others : rows array s' with
    | error fault =>
      rw [others] at done
      cases done
    | ok read =>
      rw [others] at done
      cases done
      intro own member
      rcases List.mem_append.mp member with here | behind
      · obtain rfl := Option.mem_toList.mp here
        exact statesCount_of_row inside opens taken
      · exact ih later others own behind
  | case5 => cases done

/-- Every signature that is read has as many parameters as its row states. -/
theorem statesCount_of_read {source array : String} {signatures : List Signature}
    (done : readSignatures source array = .ok signatures) :
    ∀ signature ∈ signatures, StatesCount (Token.scan source.toList 1).tokens signature := by
  rw [readSignatures] at done
  cases head : afterArrayHead array (Token.scan source.toList 1).tokens with
  | none =>
    rw [head] at done
    cases done
  | some r =>
    rw [head] at done
    rw [ByPosition.afterArrayHead_eq] at head
    exact statesCount_of_rows (ByPosition.suffix_of_window head) done

end

/-! ### Numbers of hooks -/

/-- A value stands behind an equals sign. -/
def StatesValue (tokens : List Token) (n : Int) : Prop :=
  ∃ mark number, [mark, number] <:+: tokens ∧ mark.kind = .equals ∧ number.kind.toInt? = some n

/-- Tokens fall into pieces, one for each enumerator in order. It is named in its own piece, and has
the value after that of its predecessor or one that is stated there. Sixty-four bits hold all values
and the one after the last. -/
def CountsFrom (shared : String) : List Token → Int → List Enumerator → Prop
  | _, _, [] => True
  | tokens, next, e :: r => ∃ own rest, tokens = own ++ rest ∧
      (∃ t ∈ own, t.kind = .ident (shared ++ e.name) ∧ t.span.line = e.line) ∧
      (e.value = next ∨ StatesValue own e.value) ∧ 0 ≤ e.value ∧ e.value + 1 < 2 ^ 63 ∧
      CountsFrom shared rest (e.value + 1) r

/-- The hooks of a catalogue are the enumerators of a source but for the end marker, numbered by
their values. -/
def NumbersHooks (source : String) (c : Catalogue) : Prop :=
  ∃ tokens hooks, afterEnumHead hookEnum (Token.scan source.toList 1).tokens = some tokens ∧
    readEnum source hookEnum hookShared = .ok hooks ∧ CountsFrom hookShared tokens 0 hooks ∧
    c.entries.map (fun e => (e.name, (e.id : Int))) =
      (hooks.filter (·.name ≠ endMarker)).map fun h => (h.name, h.value)

section

variable {source : List Char} {line : Nat} {s s' : Token.Stream}

theorem StatesValue.mono {tokens wider : List Token} {n : Int} (stated : StatesValue tokens n)
    (inside : tokens <:+: wider) : StatesValue wider n := by
  obtain ⟨mark, number, window, equals, reads⟩ := stated
  exact ⟨mark, number, window.trans inside, equals, reads⟩

/-- The value of an enumerator is the one handed on or one that is stated behind its name. -/
theorem statesValue_of_enumeratorTail {value n : Nat} {front : List Token} {t : Token} {next : Int}
    (inside : front ++ t :: s.tokens <:+ (Token.scan source line).tokens)
    (done : enumeratorTail value s = .ok (n, s'))
    (handed : (value : Int) = next ∨ StatesValue front value) :
    ∃ own, t ∈ own ∧ front ++ t :: s.tokens = own ++ s'.tokens ∧
      ((n : Int) = next ∨ StatesValue own n) := by
  obtain ⟨taken, left, value⟩ := enumeratorTail_ok done
  have whole : front ++ t :: s.tokens = (front ++ t :: taken) ++ s'.tokens := by
    rw [left, List.append_assoc, List.cons_append]
  refine ⟨front ++ t :: taken, by simp, whole, ?_⟩
  rcases value with rfl | ⟨mark, number, window, equals, reads⟩
  · exact handed.imp_right fun stated => stated.mono (List.prefix_append _ _).isInfix
  · have own : [mark, number] <:+: front ++ t :: taken :=
      window.isInfix.trans ((List.suffix_cons t taken).trans (List.suffix_append front _)).isInfix
    rw [whole] at inside
    have scanned : number ∈ (Token.scan source line).tokens :=
      inside.subset (List.mem_append_left _ (own.subset (by simp)))
    exact .inr ⟨mark, number, own, equals, (Token.toInt?_eq_some_iff scanned).mpr reads⟩

/-- Enumerators count on from the value handed to them. The tokens in front have been passed since
the last enumerator that is kept, and the value may have been stated among them. -/
theorem countsFrom_of_enumerators {enum shared : String} {value : Nat} {es : List Enumerator}
    {front : List Token} (inside : front ++ s.tokens <:+ (Token.scan source line).tokens)
    (done : enumerators enum shared value s = .ok es) {next : Int}
    (handed : (value : Int) = next ∨ StatesValue front value) :
    CountsFrom shared (front ++ s.tokens) next es := by
  fun_induction enumerators enum shared value s generalizing es front next with
  | case1 => cases done
  | case2 =>
    cases done
    trivial
  | case3 value t r stop notClose unnamed ih =>
    have whole : front ++ t :: r = (front ++ [t]) ++ r := by simp
    dsimp only at inside ⊢
    rw [whole] at inside ⊢
    refine ih inside done (handed.imp_right fun stated => ?_)
    exact stated.mono (List.prefix_append _ _).isInfix
  | case4 => cases done
  | case5 value t r stop notClose name named n s' tail other ih =>
    obtain ⟨own, -, whole, counted⟩ := statesValue_of_enumeratorTail inside tail handed
    dsimp only at whole inside ⊢
    rw [whole] at inside ⊢
    exact ih inside done counted
  | case6 value t r stop notClose name named n s' tail short kept small ih =>
    obtain ⟨own, here, whole, counted⟩ := statesValue_of_enumeratorTail inside tail handed
    cases others : enumerators enum shared (n + 1) s' with
    | error fault =>
      rw [others] at done
      cases done
    | ok read =>
      rw [others] at done
      cases done
      have isName : t.kind = .ident (shared ++ short) := by
        rw [Token.name?_eq_some_iff.mp named, Text.dropLead?_eq_some_iff.mp kept]
      have bounded : (n : Int) + 1 < 2 ^ 63 := by
        unfold Token.integerLimit at small
        omega
      -- the next piece starts behind this enumerator, and its value is handed on
      have later : CountsFrom shared s'.tokens (n + 1) read := by
        dsimp only at whole inside
        rw [whole] at inside
        have start : [] ++ s'.tokens <:+ (Token.scan source line).tokens :=
          (List.suffix_append own _).trans inside
        exact ih start others (.inl rfl)
      exact ⟨own, s'.tokens, whole, ⟨t, here, isName, rfl⟩, counted, Int.natCast_nonneg n, bounded,
        later⟩
  | case7 => cases done

/-- What an enumeration is read to counts from nought. -/
theorem countsFrom_of_read {source enum shared : String} {es : List Enumerator}
    (done : readEnum source enum shared = .ok es) :
    ∃ tokens, afterEnumHead enum (Token.scan source.toList 1).tokens = some tokens ∧
      CountsFrom shared tokens 0 es := by
  obtain ⟨r, head, done⟩ := readEnum_ok_iff.mp done
  refine ⟨r, head, ?_⟩
  rw [ByPosition.afterEnumHead_eq] at head
  have inside : [] ++ r <:+ (Token.scan source.toList 1).tokens := ByPosition.suffix_of_window head
  exact countsFrom_of_enumerators inside done (.inl rfl)

end

theorem CountsFrom.nonneg {shared : String} {tokens : List Token} {next : Int}
    {es : List Enumerator} (counts : CountsFrom shared tokens next es) : ∀ e ∈ es, 0 ≤ e.value := by
  induction es generalizing tokens next with
  | nil => simp
  | cons e r ih =>
    obtain ⟨own, rest, -, -, -, first, -, later⟩ := counts
    exact List.forall_mem_cons.mpr ⟨first, ih later⟩

theorem idOf_of_nonneg {value : Int} (sign : 0 ≤ value) : (idOf value : Int) = value := by
  obtain ⟨n, rfl⟩ := Int.eq_ofNat_of_zero_le sign
  rw [idOf_natCast]

/-- No hook has the number that stands for a negative value. -/
theorem numbersHooks_of_read {enumSource arraySource : String} {c : Catalogue}
    (read : Catalogue.read enumSource arraySource = .ok c) : NumbersHooks enumSource c := by
  obtain ⟨hooks, results, rows, enum, -, rfl⟩ := Catalogue.exists_join read
  obtain ⟨tokens, head, counts⟩ := countsFrom_of_read enum
  refine ⟨tokens, hooks, head, enum, counts, ?_⟩
  rw [Catalogue.join, List.map_map]
  refine List.map_congr_left fun h member => ?_
  have sign := counts.nonneg h (List.mem_filter.mp member).1
  exact congrArg (h.name, ·) (idOf_of_nonneg sign)

end Hook

/-- Integers are read exactly or not at all. A literal behind which no number goes on is one token,
whose value is the number that is written, or none where sixty-three bits do not hold it. No value
of a token is negative, and it alone is what is read for the length of an array, for a number of
parameters and for the number of a hook. -/
theorem integers_exact :
    (∀ (l : IntegerLiteral) (rest : List Char), rest.head?.any Token.isNumberRest = false →
      (∀ p : Place, Token.scanFrom p (l.chars ++ rest) =
        (Token.scanFrom (p.after l.chars) rest).push
          ⟨.number l.text, ⟨p.offset, p.offset + l.chars.length, p.line⟩⟩) ∧
      (Kind.number l.text).toNat? = (if l.value < 2 ^ 63 then some l.value else none) ∧
      (Kind.number l.text).toInt? = (Kind.number l.text).toNat?.map fun n : Nat => (n : Int)) ∧
    (∀ (source : List Char) (line : Nat), ∀ t ∈ (Token.scan source line).tokens,
      t.TakenExactly) ∧
    (∀ (source text : String) (line : Nat) (d : Declaration),
      Declaration.read source text line = .ok d → d.LengthsStated source line) ∧
    (∀ (source array : String) (signatures : List Hook.Signature),
      Hook.readSignatures source array = .ok signatures →
        ∀ s ∈ signatures, Hook.StatesCount (Token.scan source.toList 1).tokens s) ∧
    (∀ (enumSource arraySource : String) (c : Hook.Catalogue),
      Hook.Catalogue.read enumSource arraySource = .ok c → Hook.NumbersHooks enumSource c) := by
  refine ⟨fun l rest alone => ⟨l.scanFrom_append alone, l.toNat?_eq, ?_⟩, ?_, ?_, ?_, ?_⟩
  · exact Token.toInt?_number l.isNumeral_text
  · exact fun source line t member => Token.takenExactly member
  · exact fun source text line d done => Declaration.lengthsStated_of_read done
  · exact fun source array signatures done => Hook.statesCount_of_read done
  · exact fun enumSource arraySource c read => Hook.numbersHooks_of_read read

/-- A hexadecimal number with suffix letters. -/
def sampleLiteral : IntegerLiteral where
  size := .hex false (⟨7, by decide⟩, false) [(⟨12, by decide⟩, true)]
  suffix := ['u', 'L']
  letters := List.forall_mem_cons.mpr ⟨rfl, List.forall_mem_singleton.mpr rfl⟩

theorem integers_exact_sample :
    Token.scanFrom (.first 1) "0x7CuL;".toList =
        (Token.scanFrom ((Place.first 1).after "0x7CuL".toList) [';']).push
          ⟨.number "0x7CuL", ⟨0, 6, 1⟩⟩ ∧
      (Kind.number "0x7CuL").toNat? = some 124 ∧
      Declaration.sampleFill.LengthsStated Declaration.sampleFill.text 1 ∧
      (∀ s ∈ Hook.Catalogue.sampleRows,
        Hook.StatesCount (Token.scan Hook.Catalogue.sampleArray.toList 1).tokens s) ∧
      Hook.NumbersHooks Hook.Catalogue.sampleEnum Hook.Catalogue.sampleCatalogue := by
  obtain ⟨literals, -, lengths, counts, hooks⟩ := integers_exact
  have chars : sampleLiteral.chars = "0x7CuL".toList := by decide
  have text : sampleLiteral.text = "0x7CuL" := by
    rw [IntegerLiteral.text, chars, String.ofList_toList]
  obtain ⟨scanned, value, -⟩ := literals sampleLiteral [';'] (by decide)
  rw [text] at scanned value
  rw [chars] at scanned
  have fill : Declaration.read Declaration.sampleFill.text Declaration.sampleFill.text 1 =
      .ok Declaration.sampleFill := by
    decide +kernel
  have catalogue : Hook.Catalogue.read Hook.Catalogue.sampleEnum Hook.Catalogue.sampleArray =
      .ok Hook.Catalogue.sampleCatalogue := by
    decide +kernel
  obtain ⟨_, _, rows, -, read, joined⟩ := Hook.Catalogue.exists_join catalogue
  obtain rfl : rows = Hook.Catalogue.sampleRows := congrArg Hook.Catalogue.signatures joined
  exact ⟨scanned (.first 1), value, lengths _ _ _ _ fill, counts _ _ _ read, hooks _ _ _ catalogue⟩

end ScriptGlue
