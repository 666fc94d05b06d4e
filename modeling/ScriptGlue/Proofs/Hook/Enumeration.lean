import ScriptGlue.Hook.Reading
import ScriptGlue.Proofs.Hook.Listing
import ScriptGlue.Proofs.Text.Search

/-!
# Reading back the hook enumeration

An enumeration of hooks is printed as words: each enumerator has an optional explicit value, commas
stand between enumerators and perhaps behind the last one. Reading the words gives the enumerators
with the values that C gives them. The same source may hold the enumeration of results, which is
read as well; it only stops the reading if its values leave the range of integers.
-/
namespace ScriptGlue

open Token (Kind)

namespace Hook

/-! ### The printed enumeration -/

structure HookMember where
  /-- The name without the part that all names share. -/
  short : String
  valid : short.toList.all Text.isIdentRest = true
  explicit : Option SizeLiteral
  deriving DecidableEq, Repr

namespace HookMember

theorem isIdentifier_name (m : HookMember) : isIdentifier (hookShared ++ m.short) = true := by
  have shared : ∀ c ∈ "am_".toList, Text.isIdentRest c = true := by decide
  refine isIdentifier_iff.mpr ⟨'H', "am_".toList ++ m.short.toList, ?_, by decide, ?_⟩
  · rw [String.toList_append]
    rfl
  · intro c member
    rcases List.mem_append.mp member with lead | own
    · exact shared c lead
    · exact List.all_eq_true.mp m.valid c own

def words (m : HookMember) : List Word :=
  .ident (hookShared ++ m.short) m.isIdentifier_name ::
    match m.explicit with
    | some value => [.equals, value.word]
    | none => []

/-- The value of an enumerator, where `next` is the one that follows that of its predecessor. -/
def value (m : HookMember) (next : Nat) : Nat :=
  match m.explicit with
  | some value => value.value
  | none => next

end HookMember

/-- Enumerators with their values, of which the first is `next` unless it is explicit. -/
def numbered (next : Nat) : List HookMember → List (HookMember × Nat)
  | [] => []
  | m :: r => (m, m.value next) :: numbered (m.value next + 1) r

def enumHead (name : String) : List Kind := [.ident "enum", .ident name, .openBrace]

theorem isIdentifier_enum : isIdentifier "enum" = true := by decide

def enumOpening : List Word :=
  [.ident "enum" isIdentifier_enum, .ident hookEnum (by decide), .openBrace]

def enumWords (members : List HookMember) (trailing : Bool) : List Word :=
  Word.block enumOpening trailing (members.map (·.words))

/-! ### Finding it -/

/-- The first head of an enumeration is found. -/
theorem afterEnumHead_skip {name : String} (other : name ≠ "enum") {lead r : List Token}
    {a b c : Token} (head : [a, b, c].map (·.kind) = enumHead name)
    (first : ¬ enumHead name <:+: lead.map (·.kind)) :
    afterEnumHead name (lead ++ a :: b :: c :: r) = some r := by
  simp only [enumHead, List.map_cons, List.map_nil, List.cons.injEq, and_true] at head
  obtain ⟨isEnum, isName, isBrace⟩ := head
  induction lead with
  | nil =>
    rw [List.nil_append, afterEnumHead, if_pos]
    exact ⟨Token.isNamed_iff.mpr isEnum, Token.isNamed_iff.mpr isName, isBrace⟩
  | cons t l ih =>
    have rest := ih fun inside => first (inside.trans (List.suffix_cons _ _).isInfix)
    match l with
    | [] =>
      rw [List.cons_append, List.nil_append, afterEnumHead, if_neg]
      · exact rest
      · rintro ⟨-, second, -⟩
        rw [Token.isNamed_iff, isEnum, Kind.ident.injEq] at second
        exact other second.symm
    | [x] =>
      rw [List.cons_append, List.cons_append, List.nil_append, afterEnumHead, if_neg]
      · exact rest
      · rintro ⟨-, -, third⟩
        rw [isEnum] at third
        cases third
    | x :: y :: l =>
      rw [List.cons_append, List.cons_append, List.cons_append, afterEnumHead, if_neg]
      · exact rest
      · rintro ⟨isFirst, isSecond, isThird⟩
        rw [Token.isNamed_iff] at isFirst isSecond
        refine first ⟨[], l.map (·.kind), ?_⟩
        simp [enumHead, isFirst, isSecond, isThird]

/-! ### Reading enumerators -/

variable {value : Nat} {r : List Token} {stop : Span}

theorem explicitValue_none {t : Token} (other : t.kind ≠ .equals) :
    explicitValue value ⟨t :: r, stop⟩ = .ok (value, ⟨t :: r, stop⟩) := by
  have here : (Token.Stream.current ⟨t :: r, stop⟩).kind ≠ .equals := other
  rw [explicitValue, Reader.bind_eq (Reader.peek_eq _), if_neg here]
  rfl

theorem explicitValue_some {equals number : Token} (isEquals : equals.kind = .equals) {n : Nat}
    (reads : number.kind.toNat? = some n) :
    explicitValue value ⟨equals :: number :: r, stop⟩ = .ok (n, ⟨r, stop⟩) := by
  have here : (Token.Stream.current ⟨equals :: number :: r, stop⟩).kind = .equals := isEquals
  rw [explicitValue, Reader.bind_eq (Reader.peek_eq _), if_pos here,
    Reader.bind_eq (Reader.advance_eq equals _ _),
    Reader.bind_eq (Reader.advance_eq number _ _), reads]
  rfl

theorem enumeratorTail_eq {s s' s'' : Token.Stream} {n : Nat}
    (explicit : explicitValue value s = .ok (n, s'))
    (comma : Reader.skip .comma s' = .ok ((), s'')) : enumeratorTail value s = .ok (n, s'') := by
  rw [enumeratorTail, Reader.bind_eq explicit, Reader.bind_eq comma]
  rfl

theorem enumerators_end {enum shared : String} {close : Token} (isClose : close.kind = .closeBrace)
    (rest : List Token) : enumerators enum shared value ⟨close :: rest, stop⟩ = .ok [] := by
  rw [enumerators, if_pos isClose]

/-- An enumeration is read behind its head. -/
theorem readEnum_ok_iff {source enum shared : String} {es : List Enumerator} :
    readEnum source enum shared = .ok es ↔
      ∃ r, afterEnumHead enum (Token.scan source.toList 1).tokens = some r ∧
        enumerators enum shared 0 ⟨r, (Token.scan source.toList 1).stop⟩ = .ok es := by
  rw [readEnum]
  cases afterEnumHead enum (Token.scan source.toList 1).tokens <;> simp

/-- An enumerator of the enumeration takes its value and hands the next one on. -/
theorem enumerators_cons {enum shared name short : String} {t : Token}
    (isName : t.kind = .ident name) (lead : Text.dropLead? shared name = some short) {n : Nat}
    {s : Token.Stream} (tail : enumeratorTail value ⟨r, stop⟩ = .ok (n, s))
    (bound : n + 1 < Token.integerLimit) :
    enumerators enum shared value ⟨t :: r, stop⟩ =
      (enumerators enum shared (n + 1) s).map (⟨short, n, t.span.line⟩ :: ·) := by
  have named : t.name? = some name := Token.name?_eq_some_iff.mpr isName
  rw [enumerators, if_neg (by simp [isName])]
  simp only [named]
  split
  · rename_i fault failed
    rw [tail] at failed
    cases failed
  · rename_i m s' done
    rw [tail] at done
    cases done
    simp only [lead, if_pos bound]

/-- What follows the name of an enumerator is read. -/
theorem enumeratorTail_words {m : HookMember} {name : Word} {words : List Word}
    (own : m.words = name :: words) {te : List Token}
    (spelled : te.map (·.kind) = words.map (·.kind)) (bound : m.value value < Token.integerLimit)
    {t : Token} (other : t.kind ≠ .equals) {s : Token.Stream}
    (comma : Reader.skip .comma ⟨t :: r, stop⟩ = .ok ((), s)) :
    enumeratorTail value ⟨te ++ t :: r, stop⟩ = .ok (m.value value, s) := by
  unfold HookMember.words at own
  unfold HookMember.value at bound ⊢
  cases explicit : m.explicit with
  | none =>
    rw [explicit] at own
    obtain ⟨-, rfl⟩ := List.cons.inj own
    obtain rfl := List.map_eq_nil_iff.mp spelled
    exact enumeratorTail_eq (explicitValue_none other) comma
  | some size =>
    rw [explicit] at own bound
    obtain ⟨-, rfl⟩ := List.cons.inj own
    obtain ⟨equals, te, rfl, isEquals, spelled⟩ := List.map_eq_cons_iff.mp spelled
    obtain ⟨number, te, rfl, isNumber, spelled⟩ := List.map_eq_cons_iff.mp spelled
    obtain rfl := List.map_eq_nil_iff.mp spelled
    have reads : number.kind.toNat? = some size.value := by
      rw [isNumber, size.toNat?_word bound]
    exact enumeratorTail_eq (explicitValue_some isEquals reads) comma

/-- The printed enumerators are read with their values. -/
theorem enumerators_listed (enum : String) (trailing : Bool) (members : List HookMember)
    (value : Nat) {ts : List Token}
    (spelled : ts.map (·.kind) =
      (Word.listed trailing (members.map (·.words))).map (·.kind))
    (bounded : ∀ p ∈ numbered value members, p.2 + 1 < Token.integerLimit) {close : Token}
    (isClose : close.kind = .closeBrace) (rest : List Token) (stop : Span) :
    ∃ es, enumerators enum hookShared value ⟨ts ++ close :: rest, stop⟩ = .ok es ∧
      es.map (fun e => (e.name, e.value)) =
        (numbered value members).map fun p => (p.1.short, (p.2 : Int)) := by
  induction members generalizing value ts with
  | nil =>
    obtain rfl := List.map_eq_nil_iff.mp spelled
    exact ⟨[], enumerators_end isClose rest, rfl⟩
  | cons m l ih =>
    rw [numbered, List.forall_mem_cons] at bounded
    obtain ⟨tm, tc, tr, rfl, own, separator, back⟩ := Word.tokens_listed_cons spelled
    obtain ⟨t, te, rfl, isName, explicit⟩ := List.map_eq_cons_iff.mp own
    obtain ⟨u, r, next, other, comma⟩ := Word.skip_separator separator back isClose rest stop
    obtain ⟨es, read, values⟩ := ih (m.value value + 1) back bounded.2
    have small : m.value value < Token.integerLimit := Nat.lt_of_succ_lt bounded.1
    have tail : enumeratorTail value ⟨te ++ u :: r, stop⟩ = .ok (m.value value, _) :=
      enumeratorTail_words rfl explicit small other comma
    refine ⟨⟨m.short, m.value value, t.span.line⟩ :: es, ?_, ?_⟩
    · rw [List.append_assoc, List.append_assoc, next, List.cons_append,
        enumerators_cons isName (Text.dropLead?_append _ _) tail bounded.1, read]
      rfl
    · rw [List.map_cons, values, numbered, List.map_cons]

theorem HookMember.plain_words (m : HookMember) : ∀ w ∈ m.words, w.isHash = false := by
  unfold HookMember.words
  cases m.explicit with
  | none => simp [Word.isHash, Word.kind]
  | some value => simp [Word.isHash, Word.kind, Word.equals, SizeLiteral.word, Token.markKind]

/-- A printed enumeration is read back. -/
theorem readEnum_printed {members : List HookMember} {trailing : Bool} {source : String}
    (printed : Printed (enumHead hookEnum) (enumWords members trailing) source)
    (bounded : ∀ p ∈ numbered 0 members, p.2 + 1 < Token.integerLimit) :
    ∃ es, readEnum source hookEnum hookShared = .ok es ∧
      es.map (fun e => (e.name, e.value)) =
        (numbered 0 members).map fun p => (p.1.short, (p.2 : Int)) := by
  have plain : ∀ item ∈ members.map (·.words), ∀ w ∈ item, w.isHash = false := by
    rw [List.forall_mem_map]
    exact fun m _ => m.plain_words
  have plainOpening : ∀ w ∈ enumOpening, w.isHash = false := by decide
  obtain ⟨opening, inside, close, rest, whole, head, items, isClose⟩ :=
    printed.tokens_block plainOpening plain
  obtain ⟨es, read, values⟩ := enumerators_listed hookEnum trailing members 0 items bounded isClose
    rest (Token.scan source.toList 1).stop
  have kinds : opening.map (·.kind) = enumHead hookEnum := head
  obtain ⟨a, more, rfl, -, head⟩ := List.map_eq_cons_iff.mp head
  obtain ⟨b, more, rfl, -, head⟩ := List.map_eq_cons_iff.mp head
  obtain ⟨c, more, rfl, -, head⟩ := List.map_eq_cons_iff.mp head
  obtain rfl := List.map_eq_nil_iff.mp head
  have found : afterEnumHead hookEnum (Token.scan source.toList 1).tokens =
      some (inside ++ close :: rest) := by
    rw [whole]
    exact afterEnumHead_skip (by decide) kinds printed.first
  refine ⟨es, ?_, values⟩
  rw [readEnum]
  simp only [found]
  exact read

/-! ### Results in the same source -/

/-- The values that C gives the enumerators before a closing brace, as far as they can be read. -/
def enumValues (next : Nat) : List Kind → List Nat
  | [] => []
  | .closeBrace :: _ => []
  | .ident _ :: .equals :: k :: r =>
    match k.toNat? with
    | some value => value :: enumValues (value + 1) r
    | none => []
  | .ident _ :: r => next :: enumValues (next + 1) r
  | _ :: r => enumValues next r

/-- The values of the enumeration of results, if a source has one. -/
def resultValues (source : String) : List Nat :=
  match afterEnumHead resultEnum (Token.scan source.toList 1).tokens with
  | some r => enumValues 0 (r.map (·.kind))
  | none => []

theorem enumValues_skip {s s' : Token.Stream} (skipped : Reader.skip .comma s = .ok ((), s'))
    (next : Nat) : enumValues next (s.tokens.map (·.kind)) =
      enumValues next (s'.tokens.map (·.kind)) := by
  obtain ⟨ts, stop⟩ := s
  cases ts with
  | nil =>
    cases skipped
    rfl
  | cons t r =>
    by_cases comma : t.kind = .comma
    · rw [Reader.skip_eq comma] at skipped
      cases skipped
      simp [comma, enumValues]
    · rw [Reader.skip_other comma] at skipped
      cases skipped
      rfl

theorem toNat?_lt {k : Kind} {n : Nat} (reads : k.toNat? = some n) : n < Token.integerLimit := by
  cases k with
  | number spelling =>
    rw [Kind.toNat?, Token.integer?, Option.filter_eq_some_iff] at reads
    exact of_decide_eq_true reads.2
  | _ => cases reads

/-- Behind the name of an enumerator stands no value, a value or something that is refused. -/
theorem explicitValue_cases (value : Nat) (ts : List Token) (stop : Span) :
    ((∀ mark ∈ ts.head?, mark.kind ≠ .equals) ∧
        explicitValue value ⟨ts, stop⟩ = .ok (value, ⟨ts, stop⟩)) ∨
      (∃ mark number r n, ts = mark :: number :: r ∧ mark.kind = .equals ∧
        number.kind.toNat? = some n ∧ explicitValue value ⟨ts, stop⟩ = .ok (n, ⟨r, stop⟩)) ∨
      ∃ expected found span, explicitValue value ⟨ts, stop⟩ =
        .error (.unexpectedToken expected found span) := by
  match ts with
  | [] => exact .inl ⟨by simp, rfl⟩
  | [mark] =>
    by_cases equals : mark.kind = .equals
    · refine .inr (.inr ⟨"integer", Kind.stop.describe, stop, ?_⟩)
      have here : (Token.Stream.current ⟨[mark], stop⟩).kind = .equals := equals
      rw [explicitValue, Reader.bind_eq (Reader.peek_eq _), if_pos here]
      rfl
    · exact .inl ⟨by simpa using equals, explicitValue_none equals⟩
  | mark :: number :: r =>
    by_cases equals : mark.kind = .equals
    · cases reads : number.kind.toNat? with
      | some n =>
        exact .inr (.inl ⟨mark, number, r, n, rfl, equals, reads, explicitValue_some equals reads⟩)
      | none =>
        refine .inr (.inr ⟨"integer", number.kind.describe, number.span, ?_⟩)
        have here : (Token.Stream.current ⟨mark :: number :: r, stop⟩).kind = .equals := equals
        rw [explicitValue, Reader.bind_eq (Reader.peek_eq _), if_pos here,
          Reader.bind_eq (Reader.advance_eq mark _ _),
          Reader.bind_eq (Reader.advance_eq number _ _), reads]
        rfl
    · exact .inl ⟨by simpa using equals, explicitValue_none equals⟩

/-- The value that is read for an enumerator is the explicit one or the one handed on, and so is the
one that C gives it. -/
theorem enumeratorTail_values {n : Nat} {s : Token.Stream}
    (done : enumeratorTail value ⟨r, stop⟩ = .ok (n, s)) (name : String) (next : Nat) :
    ∃ v, enumValues next (.ident name :: r.map (·.kind)) =
        v :: enumValues (v + 1) (s.tokens.map (·.kind)) ∧
      (n = value ∧ v = next ∨ n = v ∧ v < Token.integerLimit) := by
  obtain ⟨m, s', explicit, done⟩ := Reader.bind_ok done
  obtain ⟨_, s'', skipped, done⟩ := Reader.bind_ok done
  cases done
  rcases explicitValue_cases value r stop with ⟨other, same⟩ |
    ⟨mark, number, r', n', rfl, equals, reads, same⟩ | ⟨expected, found, span, same⟩
  · rw [same] at explicit
    cases explicit
    refine ⟨next, ?_, .inl ⟨rfl, rfl⟩⟩
    rw [← enumValues_skip skipped, enumValues]
    intro k ks spelled
    obtain ⟨mark, r', rfl, equals, -⟩ := List.map_eq_cons_iff.mp spelled
    exact other mark rfl equals
  · rw [same] at explicit
    cases explicit
    refine ⟨n, ?_, .inr ⟨rfl, toNat?_lt reads⟩⟩
    rw [← enumValues_skip skipped, List.map_cons, List.map_cons, equals, enumValues]
    simp only [reads]
  · rw [same] at explicit
    cases explicit

/-- Wherever a value is read, the comma behind it is read as well, if there is one. -/
theorem exists_enumeratorTail {s s' : Token.Stream} {n : Nat}
    (explicit : explicitValue value s = .ok (n, s')) :
    ∃ s'', enumeratorTail value s = .ok (n, s'') := by
  obtain ⟨_ | ⟨t, r⟩, stop⟩ := s'
  · exact ⟨_, enumeratorTail_eq explicit rfl⟩
  · by_cases comma : t.kind = .comma
    · exact ⟨_, enumeratorTail_eq explicit (Reader.skip_eq comma r stop)⟩
    · exact ⟨_, enumeratorTail_eq explicit (Reader.skip_other comma r stop)⟩

/-- Only an enumerator beyond the limit stops the count. -/
theorem enumeratorTail_error {s : Token.Stream} {fault : Fault}
    (failed : enumeratorTail value s = .error fault) : fault ≠ .counterOverflow := by
  have reads {n : Nat} {s' : Token.Stream} (explicit : explicitValue value s = .ok (n, s')) :
      False := by
    obtain ⟨s'', done⟩ := exists_enumeratorTail explicit
    rw [done] at failed
    cases failed
  rcases explicitValue_cases value s.tokens s.stop with ⟨-, same⟩ |
    ⟨mark, number, r', n', -, -, -, same⟩ | ⟨expected, found, span, same⟩
  · exact (reads same).elim
  · exact (reads same).elim
  · have refused : enumeratorTail value s = .error (.unexpectedToken expected found span) := by
      simp only [enumeratorTail, bind, StateT.bind, same, Except.bind]
    rw [refused] at failed
    cases failed
    simp

theorem enumValues_other {k : Kind} (notClose : k ≠ .closeBrace) (unnamed : k.name? = none)
    (next : Nat) (ks : List Kind) : enumValues next (k :: ks) = enumValues next ks := by
  cases k with
  | ident name => cases unnamed
  | closeBrace => exact absurd rfl notClose
  | _ => rw [enumValues] <;> simp

/-- Where the values of an enumeration leave the range of integers, it has the last value of the
range, as C counts. Names of other enumerations count there and do not count when it is read. -/
theorem mem_enumValues_of_overflow {enum shared : String} {s : Token.Stream}
    (failed : enumerators enum shared value s = .error .counterOverflow) {next : Nat}
    (behind : value ≤ next) (bound : next < Token.integerLimit) :
    Token.integerLimit - 1 ∈ enumValues next (s.tokens.map (·.kind)) := by
  -- C counts every enumerator, so its next value is never below the one handed on; both are set to
  -- the same by a written value
  fun_induction enumerators enum shared value s generalizing next with
  | case1 => cases failed
  | case2 => cases failed
  | case3 value t r stop notClose unnamed ih =>
    rw [List.map_cons, enumValues_other notClose unnamed]
    exact ih failed behind bound
  | case4 value t r stop notClose name named fault tail =>
    cases failed
    exact absurd rfl (enumeratorTail_error tail)
  | case5 value t r stop notClose name named n s' tail other ih =>
    obtain ⟨v, values, read⟩ := enumeratorTail_values tail name next
    rw [List.map_cons, Token.name?_eq_some_iff.mp named, values]
    by_cases last : v = Token.integerLimit - 1
    · exact last ▸ List.mem_cons_self
    · exact List.mem_cons_of_mem _ (ih failed (by omega) (by omega))
  | case6 value t r stop notClose name named n s' tail short own small ih =>
    obtain ⟨v, values, read⟩ := enumeratorTail_values tail name next
    rw [List.map_cons, Token.name?_eq_some_iff.mp named, values]
    by_cases last : v = Token.integerLimit - 1
    · exact last ▸ List.mem_cons_self
    · have later : enumerators enum shared (n + 1) s' = .error .counterOverflow := by
        cases rest : enumerators enum shared (n + 1) s' with
        | error fault =>
          rw [rest] at failed
          cases failed
          rfl
        | ok es =>
          rw [rest] at failed
          cases failed
      exact List.mem_cons_of_mem _ (ih later (by omega) (by omega))
  | case7 value t r stop notClose name named n s' tail short own large =>
    obtain ⟨v, values, read⟩ := enumeratorTail_values tail name next
    have last : v = Token.integerLimit - 1 := by omega
    rw [List.map_cons, Token.name?_eq_some_iff.mp named, values]
    exact last ▸ List.mem_cons_self

/-- Results are read from any source that gives none of them the last value of the range. -/
theorem readResults_ok {source : String}
    (bounded : Token.integerLimit - 1 ∉ resultValues source) :
    ∃ results, readResults source = .ok results := by
  unfold readResults
  split
  · exact ⟨_, rfl⟩
  · rename_i overflow
    exfalso
    apply bounded
    rw [readEnum] at overflow
    cases found : afterEnumHead resultEnum (Token.scan source.toList 1).tokens with
    | none =>
      simp only [found] at overflow
      cases overflow
    | some r =>
      simp only [found] at overflow
      simp only [resultValues, found]
      exact mem_enumValues_of_overflow overflow (Nat.le_refl 0) (by decide)
  · exact ⟨_, rfl⟩

end Hook

end ScriptGlue
