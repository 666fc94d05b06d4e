import ScriptGlue.Proofs.Access.Records

/-!
# Scraped calls

A source in which calls that define properties stand one behind the other, with other tokens
between them, gives its structure one property for each call that names one: in order, and only the
first of each name.
-/
namespace ScriptGlue

namespace RecordProperty

open ByPosition (argumentsAhead argumentsAhead_open argumentsAhead_close argumentsAhead_end
  argumentsAhead_comma argumentsAhead_other argumentsAhead_nil)

/-! ### Arguments -/

/-- How many brackets of any kind are opened. -/
def openers (ts : List Token) : Nat := ts.countP (isOpener ·.kind)

/-- How many brackets of any kind are closed. -/
def closers (ts : List Token) : Nat := ts.countP (isCloser ·.kind)

/-- Behind `depth` open brackets, none is closed that is not open. -/
def StaysOpen (depth : Nat) (ts : List Token) : Prop :=
  ∀ n ≤ ts.length, closers (ts.take n) ≤ depth + openers (ts.take n)

/-- Behind `depth` open brackets, every comma stands in one. -/
def CommasInside (depth : Nat) (ts : List Token) : Prop :=
  ∀ n, (h : n < ts.length) → ts[n].kind = .comma →
    closers (ts.take n) < depth + openers (ts.take n)

/-- An argument has tokens, closes just the brackets that it opens, and has commas in brackets
only. -/
structure IsArgument (arg : List Token) : Prop where
  filled : arg ≠ []
  opened : ∀ n ≤ arg.length, closers (arg.take n) ≤ openers (arg.take n)
  closed : closers arg = openers arg
  commas : ∀ n, (h : n < arg.length) → arg[n].kind = .comma →
    closers (arg.take n) < openers (arg.take n)

instance (arg : List Token) : Decidable (IsArgument arg) :=
  decidable_of_iff
    (arg ≠ [] ∧ (∀ n ≤ arg.length, closers (arg.take n) ≤ openers (arg.take n)) ∧
      closers arg = openers arg ∧
      ∀ n, (h : n < arg.length) → arg[n].kind = .comma →
        closers (arg.take n) < openers (arg.take n))
    ⟨fun ⟨filled, opened, closed, commas⟩ => ⟨filled, opened, closed, commas⟩,
      fun ⟨filled, opened, closed, commas⟩ => ⟨filled, opened, closed, commas⟩⟩

abbrev Argument := { arg : List Token // IsArgument arg }

/-- The text of an argument: from where its first token starts to where its last one ends. -/
def Argument.text (source : List Char) (arg : Argument) : String :=
  String.ofList ((source.take (arg.1.getLast arg.2.filled).span.stop).drop
    (arg.1.head arg.2.filled).span.start)

/-- Tokens are arguments with commas between them. -/
inductive Joined : List Argument → List Token → Prop
  | one (arg : Argument) : Joined [arg] arg
  | more (arg : Argument) {comma : Token} {args : List Argument} {ts : List Token}
    (parts : comma.kind = .comma) (later : Joined args ts) :
    Joined (arg :: args) (arg ++ comma :: ts)

section

variable {depth : Nat} {t : Token} {r : List Token}

theorem isCloser_eq_false {kind : Token.Kind} (opens : isOpener kind = true) :
    isCloser kind = false := by
  cases kind <;> first | rfl | cases opens

theorem openers_cons : openers (t :: r) = openers [t] + openers r := by
  rw [← List.singleton_append, openers, List.countP_append]
  rfl

theorem closers_cons : closers (t :: r) = closers [t] + closers r := by
  rw [← List.singleton_append, closers, List.countP_append]
  rfl

/-- Behind a token, the brackets that are open with it stay open. -/
theorem StaysOpen.tail {depth' : Nat} (opened : StaysOpen depth (t :: r))
    (level : depth' + closers [t] = depth + openers [t]) : StaysOpen depth' r := by
  intro n inside
  have before := opened (n + 1) (Nat.succ_le_succ inside)
  rw [List.take_succ_cons, closers_cons, openers_cons] at before
  omega

theorem CommasInside.tail {depth' : Nat} (commas : CommasInside depth (t :: r))
    (level : depth' + closers [t] = depth + openers [t]) : CommasInside depth' r := by
  intro n inside comma
  have before := commas (n + 1) (Nat.succ_lt_succ inside) comma
  rw [List.take_succ_cons, closers_cons, openers_cons] at before
  omega

end

/-- The tokens of an argument are held as they are. -/
theorem argumentsAhead_within {depth : Nat} {ts : List Token} (opened : StaysOpen depth ts)
    (commas : CommasInside depth ts) (held rest : List Token) :
    argumentsAhead depth held (ts ++ rest) =
      argumentsAhead (depth + openers ts - closers ts) (held ++ ts) rest := by
  induction ts generalizing depth held with
  | nil => simp [openers, closers]
  | cons t r ih =>
    have next {depth' : Nat} (level : depth' + closers [t] = depth + openers [t]) :
        argumentsAhead depth' (held ++ [t]) (r ++ rest) =
          argumentsAhead (depth + openers (t :: r) - closers (t :: r)) (held ++ t :: r) rest := by
      have both : depth' + openers r - closers r =
          depth + openers (t :: r) - closers (t :: r) := by
        rw [openers_cons, closers_cons]
        omega
      rw [ih (opened.tail level) (commas.tail level), List.append_assoc, List.singleton_append,
        both]
    rw [List.cons_append]
    rcases Bool.eq_false_or_eq_true (isOpener t.kind) with opens | notOpen
    · rw [argumentsAhead_open opens]
      exact next (by simp [openers, closers, opens, isCloser_eq_false opens])
    rcases Bool.eq_false_or_eq_true (isCloser t.kind) with closes | notClose
    · -- the bracket that is closed here was open
      have one : 1 ≤ depth := by
        simpa [openers, closers, notOpen, closes] using opened 1 (by simp)
      obtain ⟨depth, rfl⟩ := Nat.exists_eq_add_of_le' one
      rw [argumentsAhead_close notOpen closes]
      exact next (by simp [openers, closers, notOpen, closes])
    · have inside : ¬ (t.kind = .comma ∧ depth = 0) := by
        rintro ⟨comma, rfl⟩
        have := commas 0 (by simp) comma
        simp [openers, closers] at this
      rw [argumentsAhead_other notOpen notClose inside]
      exact next (by simp [openers, closers, notOpen, notClose])

theorem argumentsAhead_argument (arg : Argument) (rest : List Token) :
    argumentsAhead 0 [] (arg ++ rest) = argumentsAhead 0 arg rest := by
  obtain ⟨ts, isArgument⟩ := arg
  have opened : StaysOpen 0 ts := by simpa [StaysOpen] using isArgument.opened
  have commas : CommasInside 0 ts := by simpa [CommasInside] using isArgument.commas
  rw [argumentsAhead_within opened commas, isArgument.closed, Nat.add_sub_cancel,
    List.nil_append]

/-- A call ends where it is closed, and its arguments are those that are joined in it. -/
theorem argumentsAhead_joined {args : List Argument} {inner : List Token}
    (joined : Joined args inner) {close : Token} (closes : close.kind = .closeParen)
    (rest : List Token) :
    argumentsAhead 0 [] (inner ++ close :: rest) = some (args.map (·.1), rest) := by
  induction joined with
  | one arg =>
    have filled : ByPosition.dropLastEmpty [arg.1] = [arg.1] :=
      if_neg (by simpa using arg.2.filled)
    rw [argumentsAhead_argument, argumentsAhead_end (by simp [closes, isOpener])
      (by simp [closes, isCloser]), filled]
    rfl
  | more arg parts later ih =>
    rw [List.append_assoc, argumentsAhead_argument, List.cons_append, argumentsAhead_comma parts,
      ih]
    rfl

/-! ### Calls -/

/-- What `obj->Set(` is made of. -/
def setLead : List Token.Kind :=
  [.ident "obj", .other '-', .other '>', .ident "Set", .openParen]

/-- An accessor macro and its opening parenthesis. -/
def accessorLead (name : String) : List Token.Kind := [.ident name, .openParen]

/-- All that calls start with. -/
def leads : List (List Token.Kind) := setLead :: accessorNames.map accessorLead

/-- A call that defines a property. -/
inductive Call where
  | set (context key value : Argument) (more : List Argument)
  | accessor (name : { name // name ∈ accessorNames }) (first : Argument) (more : List Argument)

namespace Call

def lead : Call → List Token.Kind
  | set .. => setLead
  | accessor name .. => accessorLead name

def args : Call → List Argument
  | set context key value more => context :: key :: value :: more
  | accessor _ first more => first :: more

/-- Tokens are the call. -/
inductive Spells (call : Call) : List Token → Prop
  | mk {start inner : List Token} {close : Token} (leads : start.map (·.kind) = call.lead)
    (joined : Joined call.args inner) (closes : close.kind = .closeParen) :
    Spells call (start ++ (inner ++ [close]))

/-- The script type of a getter, if there is one. -/
def getterType : Option String → String
  | some getter => typeOfGetter getter
  | none => "number"

/-- The place of the first argument with a literal. -/
def holder (args : List Argument) : Nat := args.findIdx (firstLiteral? ·.1 |>.isSome)

/-- What a macro defines is named by its first literal. Its type is that of the first identifier two
arguments on. -/
def accessed? (args : List Argument) : Option RecordProperty :=
  (args[holder args]?.bind (firstLiteral? ·.1)).map fun name =>
    ⟨name, getterType (args[holder args + 2]?.bind (·.1.findSome? (·.name?)))⟩

/-- The property of a call. What `obj->Set` sets is named by the first literal of its second
argument. Its type is read from the text of the third one. -/
def property? (source : List Char) : Call → Option RecordProperty
  | set _ key value _ =>
    (firstLiteral? key).map fun name => ⟨name, typeOfValue (value.text source)⟩
  | accessor _ first more => accessed? (first :: more)

end Call

/-- No call starts among the tokens of a gap. -/
def IsGap (gap : List Token) : Prop := ∀ lead ∈ leads, ¬ lead <:+: gap.map (·.kind)

/-- Tokens are calls one behind the other, with gaps around them. -/
inductive Spells : List Call → List Token → Prop
  | nil {gap : List Token} (isGap : IsGap gap) : Spells [] gap
  | cons {gap ts rest : List Token} {call : Call} {calls : List Call} (isGap : IsGap gap)
    (spells : call.Spells ts) (later : Spells calls rest) :
    Spells (call :: calls) (gap ++ (ts ++ rest))

/-! ### Texts of arguments -/

/-- Tokens stand as in a source: none ends before it starts, or behind the start of a later one. -/
structure InOrder (ts : List Token) : Prop where
  forward : ∀ t ∈ ts, t.span.start ≤ t.span.stop
  apart : ts.Pairwise fun a b => a.span.stop ≤ b.span.start

theorem InOrder.sublist {ts part : List Token} (inOrder : InOrder ts) (within : part.Sublist ts) :
    InOrder part :=
  ⟨fun t member => inOrder.forward t (within.subset member), inOrder.apart.sublist within⟩

theorem inOrder_scan (source : List Char) (line : Nat) :
    InOrder (Token.scan source line).tokens := by
  refine ⟨fun t member => ?_, Token.ordered_scanFrom _ _⟩
  obtain ⟨c, r, -, -, stop⟩ := Token.exists_lexeme member
  omega

/-- The first token starts first, and the last one ends last. -/
theorem InOrder.cover_eq {ts : List Token} (inOrder : InOrder ts) (filled : ts ≠ []) :
    ∃ line, (ts.head filled).span.cover (ts.getLast filled).span =
      ⟨(ts.head filled).span.start, (ts.getLast filled).span.stop, line⟩ ∧
        (ts.head filled).span.start ≤ (ts.getLast filled).span.stop := by
  have first := inOrder.forward _ (List.head_mem filled)
  have last := inOrder.forward _ (List.getLast_mem filled)
  have later : ts.head filled = ts.getLast filled ∨
      (ts.head filled).span.stop ≤ (ts.getLast filled).span.start := by
    obtain ⟨t, r, rfl⟩ := List.exists_cons_of_ne_nil filled
    by_cases single : r = []
    · left
      simp [single]
    · right
      rw [List.head_cons, List.getLast_cons single]
      exact (List.pairwise_cons.mp inOrder.apart).1 _ (List.getLast_mem single)
  refine ⟨min (ts.head filled).span.line (ts.getLast filled).span.line, ?_, ?_⟩
  · rcases later with same | apart
    · simp [Span.cover, same]
    · rw [Span.cover, Nat.min_eq_left (by omega), Nat.max_eq_right (by omega)]
  · rcases later with same | apart
    · rwa [same]
    · omega

theorem sourceText_eq {source : List Char} {arg : Argument} (inOrder : InOrder arg.1) :
    sourceText source arg = arg.text source := by
  obtain ⟨line, cover, ordered⟩ := inOrder.cover_eq arg.2.filled
  rw [sourceText, List.head?_eq_some_head arg.2.filled, List.getLast?_eq_some_getLast arg.2.filled]
  simp only [cover]
  rw [Span.text, Span.slice_of_le ordered, Argument.text, List.drop_take]

theorem Joined.sublist {args : List Argument} {ts : List Token} (joined : Joined args ts)
    {arg : Argument} (member : arg ∈ args) : arg.1.Sublist ts := by
  induction joined with
  | one =>
    obtain rfl := List.mem_singleton.mp member
    exact .refl _
  | more first parts later ih =>
    rcases List.mem_cons.mp member with rfl | member
    · exact List.sublist_append_left _ _
    · exact ((ih member).cons _).trans (List.sublist_append_right _ _)

/-! ### Finding calls -/

theorem afterSet?_eq_some_iff {ts r : List Token} :
    afterSet? ts = some r ↔ ∃ start, start.map (·.kind) = setLead ∧ ts = start ++ r := by
  constructor
  · intro after
    unfold afterSet? at after
    split at after
    · rename_i a b c d e behind
      split at after
      · rename_i marks
        obtain rfl := Option.some.inj after
        rw [Token.isNamed_iff, Token.isNamed_iff] at marks
        exact ⟨[a, b, c, d, e], by simp [setLead, marks], rfl⟩
      · cases after
    · cases after
  · rintro ⟨start, kinds, rfl⟩
    simp only [setLead, List.map_eq_cons_iff, List.map_eq_nil_iff] at kinds
    obtain ⟨a, _, rfl, obj, b, _, rfl, minus, c, _, rfl, greater, d, _, rfl, set, e, _, rfl,
      paren, rfl⟩ := kinds
    exact if_pos ⟨Token.isNamed_iff.mpr obj, minus, greater, Token.isNamed_iff.mpr set, paren⟩

/-- A macro call starts with one of the names and a parenthesis. -/
theorem afterAccessor?_eq_some_iff {ts r : List Token} :
    afterAccessor? ts = some r ↔ ∃ name ∈ accessorNames, ∃ start : List Token,
      start.map (·.kind) = accessorLead name ∧ ts = start ++ r := by
  constructor
  · intro after
    unfold afterAccessor? at after
    split at after
    · rename_i a b behind
      split at after
      · rename_i marks
        obtain rfl := Option.some.inj after
        obtain ⟨accessor, paren⟩ := marks
        obtain ⟨name, named, member⟩ : ∃ name, a.name? = some name ∧ name ∈ accessorNames := by
          simpa [Option.any_eq_true] using accessor
        rw [Token.name?_eq_some_iff] at named
        exact ⟨name, member, [a, b], by simp [accessorLead, named, paren], rfl⟩
      · cases after
    · cases after
  · rintro ⟨name, member, start, kinds, rfl⟩
    simp only [accessorLead, List.map_eq_cons_iff, List.map_eq_nil_iff] at kinds
    obtain ⟨a, _, rfl, named, b, _, rfl, paren, rfl⟩ := kinds
    refine if_pos ⟨?_, paren⟩
    rw [Token.name?_eq_some_iff.mpr named]
    simpa using member

/-- Tokens that start within a gap and go on behind it start no call, if what stands behind the
gap starts a call or is nothing. -/
theorem not_lead_of_gap {gap rest start r : List Token} (isGap : IsGap gap) (filled : gap ≠ [])
    (front : ∀ t ∈ rest.head?, ∀ lead ∈ leads, t.kind ∉ lead.tail)
    (same : gap ++ rest = start ++ r) : start.map (·.kind) ∉ leads := by
  intro isLead
  rcases List.append_eq_append_iff.mp same with ⟨more, rfl, behind⟩ | ⟨more, rfl, -⟩
  · -- the lead would go on behind the gap
    cases more with
    | nil =>
      rw [List.append_nil] at isLead
      exact isGap _ isLead (List.infix_refl _)
    | cons t more =>
      obtain ⟨u, gap, rfl⟩ := List.exists_cons_of_ne_nil filled
      exact front t (by simp [behind]) _ isLead (by simp)
  · exact isGap _ isLead (by simpa using ⟨[], _, rfl⟩)

/-- No call starts in a gap. -/
theorem call?_gap {source : List Char} {gap rest : List Token} (isGap : IsGap gap)
    (filled : gap ≠ []) (front : ∀ t ∈ rest.head?, ∀ lead ∈ leads, t.kind ∉ lead.tail) :
    call? source (gap ++ rest) = none := by
  have set : afterSet? (gap ++ rest) = none := by
    rw [Option.eq_none_iff_forall_ne_some]
    intro r after
    obtain ⟨start, kinds, same⟩ := afterSet?_eq_some_iff.mp after
    exact not_lead_of_gap isGap filled front same (by simp [kinds, leads])
  have accessor : afterAccessor? (gap ++ rest) = none := by
    rw [Option.eq_none_iff_forall_ne_some]
    intro r after
    obtain ⟨name, member, start, kinds, same⟩ := afterAccessor?_eq_some_iff.mp after
    refine not_lead_of_gap isGap filled front same ?_
    rw [kinds]
    exact List.mem_cons_of_mem _ (List.mem_map_of_mem member)
  rw [call?, set, accessor]
  rfl

/-- The tokens of a gap are passed. -/
theorem ofTokens_gap {source : List Char} {gap rest : List Token} (isGap : IsGap gap)
    (front : ∀ t ∈ rest.head?, ∀ lead ∈ leads, t.kind ∉ lead.tail) :
    ofTokens source (gap ++ rest) = ofTokens source rest := by
  induction gap with
  | nil => rfl
  | cons t gap ih =>
    have shorter : IsGap gap := fun lead isLead inside =>
      isGap lead isLead (inside.trans (List.suffix_cons _ _).isInfix)
    have none : call? source (t :: (gap ++ rest)) = none :=
      call?_gap isGap (List.cons_ne_nil _ _) front
    rw [List.cons_append, ofTokens]
    split
    · rename_i called
      rw [none] at called
      cases called
    · exact ih shorter

theorem Call.lead_eq (call : Call) :
    ∃ name ∈ "obj" :: accessorNames, ∃ tail, call.lead = .ident name :: tail := by
  cases call with
  | set => exact ⟨"obj", by simp, _, rfl⟩
  | accessor name => exact ⟨name, List.mem_cons_of_mem _ name.2, _, rfl⟩

/-- What a call starts with is not what another goes on with. -/
theorem Call.Spells.front {call : Call} {ts : List Token} (spells : call.Spells ts)
    (rest : List Token) : ∀ t ∈ (ts ++ rest).head?, ∀ lead ∈ leads, t.kind ∉ lead.tail := by
  have apart : ∀ name ∈ "obj" :: accessorNames, ∀ lead ∈ leads, .ident name ∉ lead.tail := by
    decide
  obtain ⟨kinds, -, -⟩ := spells
  obtain ⟨name, member, tail, lead⟩ := call.lead_eq
  rw [lead, List.map_eq_cons_iff] at kinds
  obtain ⟨a, _, rfl, named, -⟩ := kinds
  intro t first
  obtain rfl : a = t := by simpa using first
  exact named ▸ apart name member

/-- What a call encloses falls into the arguments that were joined. -/
theorem enclosed_joined {args : List Argument} {inner : List Token} {close : Token}
    (joined : Joined args inner) (closes : close.kind = .closeParen) (rest : List Token) :
    ∃ within, enclosed 0 (inner ++ close :: rest) = some (within, rest) ∧
      arguments within = args.map (·.1) := by
  have ahead := argumentsAhead_joined joined closes rest
  rw [argumentsAhead_nil] at ahead
  obtain ⟨⟨within, behind⟩, encloses, same⟩ := Option.map_eq_some_iff.mp ahead
  obtain ⟨parts, rfl⟩ := Prod.mk.inj same
  exact ⟨within, encloses, parts⟩

theorem ofAccessor?_arguments (args : List Argument) :
    ofAccessor? (args.map (·.1)) = Call.accessed? args := by
  induction args with
  | nil => rfl
  | cons arg args ih =>
    rw [List.map_cons, ofAccessor?]
    cases literal : firstLiteral? arg.1 with
    | none =>
      have holder : Call.holder (arg :: args) = Call.holder args + 1 := by
        simp [Call.holder, List.findIdx_cons, literal]
      simp only [Call.accessed?, holder, List.getElem?_cons_succ]
      exact ih
    | some name =>
      have holder : Call.holder (arg :: args) = 0 := by
        simp [Call.holder, List.findIdx_cons, literal]
      rw [Call.accessed?, holder, List.getElem?_cons_zero, Option.bind_some, literal]
      have getter : (args.map (·.1))[1]?.bind (·.findSome? (·.name?)) =
          args[1]?.bind (·.1.findSome? (·.name?)) := by
        rw [List.getElem?_map, Option.bind_map]
        rfl
      simp only [getter, Option.map_some, Nat.zero_add, List.getElem?_cons_succ]
      cases args[1]?.bind (·.1.findSome? (·.name?)) <;> rfl

/-- Tokens that spell a call give its property, and reading goes on behind them. -/
theorem Call.Spells.call? {call : Call} {ts : List Token} (spells : call.Spells ts)
    (inOrder : InOrder ts) (source : List Char) (rest : List Token) :
    RecordProperty.call? source (ts ++ rest) = some (call.property? source, rest) := by
  obtain ⟨kinds, joined, closes⟩ := spells
  rename_i start inner close
  have tokens : start ++ (inner ++ [close]) ++ rest = start ++ (inner ++ close :: rest) := by simp
  obtain ⟨within, encloses, parts⟩ := enclosed_joined joined closes rest
  rw [tokens, RecordProperty.call?]
  cases call with
  | set context key value more =>
    have within : value.1.Sublist (start ++ (inner ++ [close])) :=
      (joined.sublist (by simp [args])).trans
        ((List.sublist_append_left _ _).trans (List.sublist_append_right _ _))
    rw [afterSet?_eq_some_iff.mpr ⟨start, kinds, rfl⟩, Option.bind_some, encloses]
    simp only [parts, property?]
    rw [← sourceText_eq (inOrder.sublist within)]
    rfl
  | accessor name first more =>
    have other : afterSet? (start ++ (inner ++ close :: rest)) = none := by
      rw [Option.eq_none_iff_forall_ne_some]
      intro r after
      obtain ⟨start', kinds', same⟩ := afterSet?_eq_some_iff.mp after
      obtain ⟨a, _, rfl, named, -⟩ := List.map_eq_cons_iff.mp kinds
      obtain ⟨b, _, rfl, obj, -⟩ := List.map_eq_cons_iff.mp kinds'
      obtain ⟨rfl, -⟩ := List.cons.inj same
      have isObj : name.1 = "obj" := Token.Kind.ident.inj (named.symm.trans obj)
      exact absurd (isObj ▸ name.2) (by decide)
    have after : afterAccessor? (start ++ (inner ++ close :: rest)) =
        some (inner ++ close :: rest) :=
      afterAccessor?_eq_some_iff.mpr ⟨name, name.2, start, kinds, rfl⟩
    rw [other, after, Option.bind_none, Option.bind_some, encloses]
    simp only [Option.map_some, parts, ofAccessor?_arguments]
    rfl

/-- From any place on, the properties found are those of the calls ahead. -/
theorem ofTokens_of_spells {source : List Char} {calls : List Call} {ts : List Token}
    (spells : Spells calls ts) (inOrder : InOrder ts) :
    ofTokens source ts = calls.filterMap (·.property? source) := by
  induction spells with
  | @nil gap isGap =>
    have passed : ofTokens source (gap ++ []) = ofTokens source [] :=
      ofTokens_gap isGap (by simp)
    rw [← List.append_nil gap, passed, ofTokens]
    rfl
  | @cons gap ts rest call calls isGap spells later ih =>
    have behindGap := inOrder.sublist (List.sublist_append_right gap _)
    have here := spells.call? (behindGap.sublist (List.sublist_append_left ts rest)) source rest
    rw [ofTokens_gap isGap (spells.front rest), ofTokens]
    split
    · rename_i p behind called
      rw [here] at called
      obtain ⟨rfl, rfl⟩ := Prod.mk.inj (Option.some.inj called)
      rw [ih (behindGap.sublist (List.sublist_append_right ts rest)), List.filterMap_cons]
      cases call.property? source <;> rfl
    · rename_i notCalled
      rw [here] at notCalled
      cases notCalled

/-! ### Names -/

theorem keepFirst_eq (seen : List String) (ps : List RecordProperty) :
    keepFirst seen ps = (ps.filter (·.name ∉ seen)).eraseDupsBy (·.name == ·.name) := by
  induction ps generalizing seen with
  | nil => rfl
  | cons p r ih =>
    rw [keepFirst]
    split
    · rename_i known
      rw [ih, List.filter_cons_of_neg (by simpa using known)]
    · rename_i unknown
      rw [ih, List.filter_cons_of_pos (by simpa using unknown), List.eraseDupsBy_cons,
        List.filter_filter]
      have same : (r.filter fun q => q.name ∉ p.name :: seen) =
          r.filter fun q => (q.name == p.name) = false && q.name ∉ seen :=
        List.filter_congr fun q _ => by simp [not_or]
      rw [same]

/-- No name is kept twice, and none that has been seen. -/
theorem names_keepFirst (seen : List String) (ps : List RecordProperty) :
    ((keepFirst seen ps).map (·.name)).Nodup ∧ ∀ p ∈ keepFirst seen ps, p.name ∉ seen := by
  induction ps generalizing seen with
  | nil => exact ⟨List.nodup_nil, by simp [keepFirst]⟩
  | cons p r ih =>
    rw [keepFirst]
    split
    · exact ih seen
    · rename_i unknown
      obtain ⟨distinct, new⟩ := ih (p.name :: seen)
      refine ⟨?_, ?_⟩
      · rw [List.map_cons, List.nodup_cons]
        refine ⟨fun member => ?_, distinct⟩
        obtain ⟨q, kept, same⟩ := List.mem_map.mp member
        exact new q kept (by simp [same])
      · intro q member
        rcases List.mem_cons.mp member with rfl | kept
        · simpa using unknown
        · exact fun known => new q kept (List.mem_cons_of_mem _ known)

/-- A source whose tokens are calls with gaps around them gives, in their order, the properties of
the calls, of each name the first one. Calls inside the arguments of another give none. Whatever the
source, no name is given twice. -/
theorem ofSource_calls (source : String) :
    (∀ calls, Spells calls (Token.scan source.toList 1).tokens →
      ofSource source = (calls.filterMap (·.property? source.toList)).eraseDupsBy
        (·.name == ·.name)) ∧
      ((ofSource source).map (·.name)).Nodup := by
  refine ⟨fun calls spells => ?_, (names_keepFirst [] _).1⟩
  rw [ofSource, keepFirst_eq, ofTokens_of_spells spells (inOrder_scan _ _)]
  simp

/-- A call with another one inside, and a macro behind it. -/
def sampleSource : String :=
  "obj->Set(c, \"id\", Number::New(ACCESSOR(t, \"b\")));ACCESSORL(t, \"name\", v, GETSTR)"

def sampleToken (start stop : Nat) (kind : Token.Kind) : Token := ⟨kind, start, stop, 1⟩

def sampleContext : Argument := ⟨[sampleToken 9 10 (.ident "c")], by decide⟩

def sampleKey : Argument := ⟨[sampleToken 12 16 (.literal "id")], by decide⟩

def sampleValue : Argument :=
  ⟨[sampleToken 18 24 (.ident "Number"), sampleToken 24 25 (.other ':'),
    sampleToken 25 26 (.other ':'), sampleToken 26 29 (.ident "New"), sampleToken 29 30 .openParen,
    sampleToken 30 38 (.ident "ACCESSOR"), sampleToken 38 39 .openParen,
    sampleToken 39 40 (.ident "t"), sampleToken 40 41 .comma, sampleToken 42 45 (.literal "b"),
    sampleToken 45 46 .closeParen, sampleToken 46 47 .closeParen], by decide⟩

def sampleTemplate : Argument := ⟨[sampleToken 59 60 (.ident "t")], by decide⟩

def sampleName : Argument := ⟨[sampleToken 62 68 (.literal "name")], by decide⟩

def sampleField : Argument := ⟨[sampleToken 70 71 (.ident "v")], by decide⟩

def sampleGetter : Argument := ⟨[sampleToken 73 79 (.ident "GETSTR")], by decide⟩

def sampleSet : Call := .set sampleContext sampleKey sampleValue []

def sampleAccessor : Call :=
  .accessor ⟨"ACCESSORL", by decide⟩ sampleTemplate [sampleName, sampleField, sampleGetter]

theorem ofSource_calls_sample :
    Spells [sampleSet, sampleAccessor] (Token.scan sampleSource.toList 1).tokens ∧
      sampleValue.text sampleSource.toList = "Number::New(ACCESSOR(t, \"b\"))" ∧
      ofSource sampleSource = [⟨"id", "number"⟩, ⟨"name", "string"⟩] := by
  let comma (start : Nat) : Token := sampleToken start (start + 1) .comma
  let close (start : Nat) : Token := sampleToken start (start + 1) .closeParen
  let semicolon : Token := sampleToken 48 49 .semicolon
  have set : sampleSet.Spells
      ([sampleToken 0 3 (.ident "obj"), sampleToken 3 4 (.other '-'), sampleToken 4 5 (.other '>'),
        sampleToken 5 8 (.ident "Set"), sampleToken 8 9 .openParen] ++
          ((sampleContext ++ comma 10 :: (sampleKey ++ comma 16 :: sampleValue)) ++ [close 47])) :=
    .mk rfl (.more _ rfl (.more _ rfl (.one _))) rfl
  have accessor : sampleAccessor.Spells
      ([sampleToken 49 58 (.ident "ACCESSORL"), sampleToken 58 59 .openParen] ++
        ((sampleTemplate ++ comma 60 :: (sampleName ++ comma 68 :: (sampleField ++ comma 71 ::
          sampleGetter))) ++ [close 79])) :=
    .mk rfl (.more _ rfl (.more _ rfl (.more _ rfl (.one _)))) rfl
  have gaps : IsGap [] ∧ IsGap [semicolon] := by
    constructor <;> (unfold IsGap; decide)
  have spells : Spells [sampleSet, sampleAccessor] (Token.scan sampleSource.toList 1).tokens := by
    have whole := Spells.cons gaps.1 set (.cons gaps.2 accessor (.nil gaps.1))
    refine cast (congrArg (Spells _) ?_) whole
    decide +kernel
  refine ⟨spells, by decide +kernel, ((ofSource_calls sampleSource).1 _ spells).trans ?_⟩
  decide +kernel

end RecordProperty

end ScriptGlue
