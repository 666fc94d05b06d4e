import Mathlib.Data.List.Chain
import ScriptGlue.Proofs.Hook.Enumeration

/-!
# Enumerators of other enumerations

Names without the shared part are passed over, but their explicit values count. So an enumeration
lists the same without them exactly as far as the count comes to the same.
-/
namespace ScriptGlue

open Token (Kind)

namespace Hook

/-! ### Listing by kinds -/

/-- Lists a name with its value if it has the shared part, and goes on with the value that the next
one has. -/
def entered (shared name : String) (value : Nat) (rest : Nat → Option (List (String × Nat))) :
    Option (List (String × Nat)) :=
  match Text.dropLead? shared name with
  | none => rest value
  | some short =>
    if value + 1 < Token.integerLimit then (rest (value + 1)).map ((short, value) :: ·) else none

/-- What the tokens of an enumeration list up to its closing brace, told from their kinds. -/
def listing (shared : String) (next : Nat) : List Kind → Option (List (String × Nat))
  | [] => none
  | .closeBrace :: _ => some []
  | [.ident _, .equals] => none
  | .ident name :: .equals :: k :: r =>
    k.toNat?.bind fun value => entered shared name value fun next => listing shared next r
  | .ident name :: r => entered shared name next fun next => listing shared next r
  | _ :: r => listing shared next r

section

variable {enum shared : String} {value : Nat} {r : List Token} {stop : Span}

/-- A comma that is skipped changes nothing about what is listed behind it. -/
theorem listing_skip (shared : String) {s s' : Token.Stream}
    (skipped : Reader.skip .comma s = .ok ((), s')) (next : Nat) :
    listing shared next (s.tokens.map (·.kind)) =
      listing shared next (s'.tokens.map (·.kind)) := by
  obtain ⟨ts, stop⟩ := s
  cases ts with
  | nil =>
    cases skipped
    rfl
  | cons t r =>
    by_cases comma : t.kind = .comma
    · rw [Reader.skip_eq comma] at skipped
      cases skipped
      simp [comma, listing]
    · rw [Reader.skip_other comma] at skipped
      cases skipped
      rfl

/-- A name without a value is entered with the running one. -/
theorem listing_name (shared name : String) (value : Nat) {ks : List Kind}
    (other : ks.head? ≠ some .equals) : listing shared value (.ident name :: ks) =
      entered shared name value fun next => listing shared next ks := by
  rw [listing]
  · rintro rfl
    exact other rfl
  · rintro k r rfl
    exact other rfl

/-- A name is entered with the value that is read for it. -/
theorem listing_enumeratorTail {n : Nat} {s : Token.Stream}
    (done : enumeratorTail value ⟨r, stop⟩ = .ok (n, s)) (shared name : String) :
    listing shared value (.ident name :: r.map (·.kind)) =
      entered shared name n fun next => listing shared next (s.tokens.map (·.kind)) := by
  obtain ⟨m, s', explicit, done⟩ := Reader.bind_ok done
  obtain ⟨_, s'', skipped, done⟩ := Reader.bind_ok done
  cases done
  have rest := funext (listing_skip shared skipped)
  rw [← rest]
  rcases explicitValue_cases value r stop with ⟨other, same⟩ |
    ⟨mark, number, r', n', rfl, equals, reads, same⟩ | ⟨expected, found, span, same⟩
  · rw [same] at explicit
    cases explicit
    apply listing_name
    rw [List.head?_map]
    intro equals
    obtain ⟨mark, first, equals⟩ := Option.map_eq_some_iff.mp equals
    exact other mark first equals
  · rw [same] at explicit
    cases explicit
    rw [List.map_cons, List.map_cons, equals, listing, reads]
    rfl
  · rw [same] at explicit
    cases explicit

/-- Nothing is listed where a value is missing. -/
theorem listing_refused {fault : Fault} (failed : enumeratorTail value ⟨r, stop⟩ = .error fault)
    (shared name : String) : listing shared value (.ident name :: r.map (·.kind)) = none := by
  have unread {n : Nat} {s : Token.Stream} (explicit : explicitValue value ⟨r, stop⟩ = .ok (n, s)) :
      False := by
    obtain ⟨s', done⟩ := exists_enumeratorTail explicit
    rw [done] at failed
    cases failed
  cases r with
  | nil => exact (unread (n := value) rfl).elim
  | cons mark r =>
    by_cases equals : mark.kind = .equals
    · rw [List.map_cons, equals]
      cases r with
      | nil => rfl
      | cons number r =>
        cases reads : number.kind.toNat? with
        | some n => exact (unread (explicitValue_some equals reads)).elim
        | none => rw [List.map_cons, listing, reads, Option.bind_none]
    · exact (unread (explicitValue_none equals)).elim

/-- What is no name and closes nothing is passed. -/
theorem listing_other {k : Kind} (notClose : k ≠ .closeBrace) (unnamed : k.name? = none)
    (shared : String) (next : Nat) (ks : List Kind) :
    listing shared next (k :: ks) = listing shared next ks := by
  cases k with
  | ident name => cases unnamed
  | closeBrace => exact absurd rfl notClose
  | _ => rw [listing] <;> simp

/-- An enumeration is read to what its tokens list. -/
theorem enumerators_listing (enum shared : String) (value : Nat) (s : Token.Stream) :
    (enumerators enum shared value s).toOption.map (·.map fun e => (e.name, e.value)) =
      (listing shared value (s.tokens.map (·.kind))).map
        (·.map fun (name, value) => (name, (value : Int))) := by
  -- a token without a name is passed over by both (`case3`); a name is listed with its value if it has
  -- the shared part (`case6`, `case7`) and counts no further otherwise (`case5`)
  fun_induction enumerators enum shared value s with
  | case1 => rfl
  | case2 value t r stop closes =>
    rw [List.map_cons, closes]
    rfl
  | case3 value t r stop notClose unnamed ih =>
    rw [List.map_cons, listing_other notClose unnamed]
    exact ih
  | case4 value t r stop notClose name named fault tail =>
    rw [List.map_cons, Token.name?_eq_some_iff.mp named, listing_refused tail]
    rfl
  | case5 value t r stop notClose name named n s' tail other ih =>
    rw [List.map_cons, Token.name?_eq_some_iff.mp named, listing_enumeratorTail tail, entered,
      other]
    exact ih
  | case6 value t r stop notClose name named n s' tail short own small ih =>
    rw [List.map_cons, Token.name?_eq_some_iff.mp named, listing_enumeratorTail tail, entered, own]
    simp only [if_pos small, Option.map_map]
    cases read : enumerators enum shared (n + 1) s' with
    | error fault =>
      rw [read] at ih
      rw [Option.map_eq_none_iff.mp ih.symm]
      rfl
    | ok es =>
      rw [read] at ih
      obtain ⟨l, listed, same⟩ := Option.map_eq_some_iff.mp ih.symm
      rw [listed]
      exact congrArg (fun l => some ((short, (n : Int)) :: l)) same.symm
  | case7 value t r stop notClose name named n s' tail short own large =>
    rw [List.map_cons, Token.name?_eq_some_iff.mp named, listing_enumeratorTail tail, entered, own]
    simp only [if_neg large]
    rfl

end

/-! ### Deleted enumerators -/

/-- A part of the body of an enumeration: a token that stays, or an enumerator that goes with the
comma behind it. -/
inductive BodyPart where
  | kept (k : Kind)
  | deleted (name : String) (value : Option Kind)
  deriving DecidableEq, Repr

namespace BodyPart

def kinds : BodyPart → List Kind
  | kept k => [k]
  | deleted name none => [.ident name, .comma]
  | deleted name (some k) => [.ident name, .equals, k, .comma]

def left? : BodyPart → Option Kind
  | kept k => some k
  | deleted _ _ => none

end BodyPart

open BodyPart

def wholeKinds (parts : List BodyPart) : List Kind := parts.flatMap (·.kinds)

def leftKinds (parts : List BodyPart) : List Kind := parts.filterMap (·.left?)

/-- Enumerators can be deleted that lack the shared part, unless a stray `=` behind one of them
would then give its value to another. -/
structure Deletable (shared : String) (parts : List BodyPart) : Prop where
  unclosed : kept .closeBrace ∉ parts
  foreign : ∀ name value, deleted name value ∈ parts → Text.dropLead? shared name = none
  apart : parts.IsChain fun p q => p.left? = none → q ≠ kept .equals

/-- Whether a name has the shared part. -/
def IsOwn (shared name : String) : Prop := (Text.dropLead? shared name).isSome = true

instance (shared name : String) : Decidable (IsOwn shared name) :=
  inferInstanceAs (Decidable (_ = true))

/-- What a name adds to the count. -/
def ownStep (shared name : String) : Nat := if IsOwn shared name then 1 else 0

/-- What the count has come to behind some tokens: the last explicit value, and one more for each
name with the shared part from there on. -/
def counted (shared : String) (next : Nat) : List Kind → Nat
  | [] => next
  | .ident name :: .equals :: k :: r =>
    counted shared (k.toNat?.getD next + ownStep shared name) r
  | .ident name :: r => counted shared (next + ownStep shared name) r
  | _ :: r => counted shared next r

/-- At each name with the shared part and no explicit value the count has come to the same, with
what is deleted and without it. -/
def CountsAlike (shared : String) (next next' : Nat) (parts : List BodyPart) : Prop :=
  ∀ before name after, parts = before ++ kept (.ident name) :: after → IsOwn shared name →
    after.head? ≠ some (kept .equals) →
      counted shared next (wholeKinds before) = counted shared next' (leftKinds before)

/-- The forms of a body that can be read. -/
inductive IsBody (shared : String) : List BodyPart → Prop where
  | nil : IsBody shared []
  | deleted {parts : List BodyPart} {name : String} (later : IsBody shared parts)
    (foreign : ¬ IsOwn shared name) (noValue : parts.head? ≠ some (kept .equals)) :
    IsBody shared (deleted name none :: parts)
  | deletedValue {parts : List BodyPart} {name : String} {k : Kind} {n : Nat}
    (later : IsBody shared parts) (foreign : ¬ IsOwn shared name)
    (reads : k.toNat? = some n) (noValue : parts.head? ≠ some (kept .equals)) :
    IsBody shared (deleted name (some k) :: parts)
  | explicit {parts : List BodyPart} {name : String} {k : Kind} {n : Nat}
    (later : IsBody shared parts) (reads : k.toNat? = some n) :
    IsBody shared (kept (.ident name) :: kept .equals :: kept k :: parts)
  | name {parts : List BodyPart} {name : String} (later : IsBody shared parts)
    (noValue : parts.head? ≠ some (kept .equals)) : IsBody shared (kept (.ident name) :: parts)
  | other {parts : List BodyPart} {k : Kind} (later : IsBody shared parts)
    (unnamed : k.name? = none) (notClose : k ≠ .closeBrace) : IsBody shared (kept k :: parts)

section

variable {shared name : String} {next next' : Nat} {ks : List Kind} {parts : List BodyPart}

@[simp] theorem wholeKinds_kept (k : Kind) (parts : List BodyPart) :
    wholeKinds (kept k :: parts) = k :: wholeKinds parts := rfl

@[simp] theorem wholeKinds_deleted (name : String) (parts : List BodyPart) :
    wholeKinds (deleted name none :: parts) = .ident name :: .comma :: wholeKinds parts := rfl

@[simp] theorem wholeKinds_deletedValue (name : String) (k : Kind) (parts : List BodyPart) :
    wholeKinds (deleted name (some k) :: parts) =
      .ident name :: .equals :: k :: .comma :: wholeKinds parts := rfl

@[simp] theorem leftKinds_kept (k : Kind) (parts : List BodyPart) :
    leftKinds (kept k :: parts) = k :: leftKinds parts := rfl

@[simp] theorem leftKinds_deleted (name : String) (value : Option Kind) (parts : List BodyPart) :
    leftKinds (deleted name value :: parts) = leftKinds parts := rfl

theorem counted_name (noValue : ks.head? ≠ some .equals) :
    counted shared next (.ident name :: ks) = counted shared (next + ownStep shared name) ks := by
  rw [counted]
  rintro k r rfl
  exact noValue rfl

theorem counted_other {k : Kind} (unnamed : k.name? = none) :
    counted shared next (k :: ks) = counted shared next ks := by
  cases k with
  | ident name => cases unnamed
  | _ => rw [counted] <;> simp

theorem ownStep_of_foreign (foreign : ¬ IsOwn shared name) : ownStep shared name = 0 :=
  if_neg foreign

/-- A body that starts with no value does not do so with all its tokens. -/
theorem head?_wholeKinds (noValue : parts.head? ≠ some (kept .equals)) :
    (wholeKinds parts).head? ≠ some .equals := by
  match parts with
  | [] => simp [wholeKinds]
  | kept k :: r => simpa using noValue
  | deleted name none :: r | deleted name (some k) :: r => simp

/-- Neither does it with what is left of it. -/
theorem IsBody.head?_leftKinds (body : IsBody shared parts)
    (noValue : parts.head? ≠ some (kept .equals)) : (leftKinds parts).head? ≠ some .equals := by
  induction body with
  | nil => simp [leftKinds]
  | deleted later foreign noValue' ih | deletedValue later foreign reads noValue' ih =>
    exact ih noValue'
  | explicit | name => simp
  | other later unnamed notClose => simpa using noValue

/-- Nor do the parts at its front. -/
theorem head?_front {front behind : List BodyPart} {k : Kind} {kinds : List BodyPart → List Kind}
    (append : ∀ a b, kinds (a ++ b) = kinds a ++ kinds b) (split : parts = front ++ behind)
    (noValue : (kinds parts).head? ≠ some k) : (kinds front).head? ≠ some k := by
  intro starts
  rw [split, append, List.head?_append, starts] at noValue
  exact noValue rfl

theorem wholeKinds_append (a b : List BodyPart) :
    wholeKinds (a ++ b) = wholeKinds a ++ wholeKinds b := List.flatMap_append

theorem leftKinds_append (a b : List BodyPart) : leftKinds (a ++ b) = leftKinds a ++ leftKinds b :=
  List.filterMap_append

/-! ### Counting alike, part by part -/

theorem countsAlike_nil (shared : String) (next next' : Nat) :
    CountsAlike shared next next' [] := by
  intro before name after split
  simp at split

/-- A part in front that counts in a way of its own. -/
theorem countsAlike_cons_iff {p : BodyPart} (value value' : Nat)
    (step : ∀ before after, parts = before ++ after →
      counted shared next (wholeKinds (p :: before)) = counted shared value (wholeKinds before) ∧
      counted shared next' (leftKinds (p :: before)) = counted shared value' (leftKinds before)) :
    CountsAlike shared next next' (p :: parts) ↔
      (∀ name, p = kept (.ident name) → IsOwn shared name →
        parts.head? ≠ some (kept .equals) → next = next') ∧
      CountsAlike shared value value' parts := by
  constructor
  · intro alike
    refine ⟨fun name here own noValue => alike [] name parts (by rw [here]; rfl) own noValue, ?_⟩
    intro before name after split own noValue
    obtain ⟨whole, left⟩ := step before _ split
    rw [← whole, ← left]
    exact alike (p :: before) name after (by rw [split]; rfl) own noValue
  · rintro ⟨here, later⟩ before name after split own noValue
    rcases List.cons_eq_append_iff.mp split with ⟨rfl, same⟩ | ⟨before, rfl, rest⟩
    · obtain ⟨first, rfl⟩ := List.cons.inj same
      exact here name first.symm own noValue
    · obtain ⟨whole, left⟩ := step before _ rest
      rw [whole, left]
      exact later before name after rest own noValue

/-- A foreign name without a value may be deleted. -/
theorem countsAlike_deleted (foreign : ¬ IsOwn shared name) :
    CountsAlike shared next next' (deleted name none :: parts) ↔
      CountsAlike shared next next' parts := by
  rw [countsAlike_cons_iff next next', and_iff_right (by simp)]
  intro before after split
  rw [wholeKinds_deleted, leftKinds_deleted, counted_name (by simp), counted_other rfl,
    ownStep_of_foreign foreign]
  exact ⟨rfl, rfl⟩

/-- A foreign value that is deleted is the one that counting would have gone on from. -/
theorem countsAlike_deletedValue {k : Kind} {n : Nat} (foreign : ¬ IsOwn shared name)
    (reads : k.toNat? = some n) :
    CountsAlike shared next next' (deleted name (some k) :: parts) ↔
      CountsAlike shared n next' parts := by
  rw [countsAlike_cons_iff n next', and_iff_right (by simp)]
  intro before after split
  rw [wholeKinds_deletedValue, leftKinds_deleted, counted, counted_other rfl,
    ownStep_of_foreign foreign, reads]
  exact ⟨rfl, rfl⟩

/-- At a name with the shared part both counts have to agree. -/
theorem countsAlike_name (body : IsBody shared parts)
    (noValue : parts.head? ≠ some (kept .equals)) :
    CountsAlike shared next next' (kept (.ident name) :: parts) ↔
      (IsOwn shared name → next = next') ∧
        CountsAlike shared (next + ownStep shared name) (next' + ownStep shared name) parts := by
  rw [countsAlike_cons_iff (next + ownStep shared name) (next' + ownStep shared name)]
  · refine and_congr_left fun _ => ⟨fun here own => here name rfl own noValue, ?_⟩
    rintro here _ same own -
    cases same
    exact here own
  · intro before after split
    exact ⟨counted_name (head?_front wholeKinds_append split (head?_wholeKinds noValue)),
      counted_name (head?_front leftKinds_append split (body.head?_leftKinds noValue))⟩

theorem countsAlike_other {k : Kind} (unnamed : k.name? = none) :
    CountsAlike shared next next' (kept k :: parts) ↔ CountsAlike shared next next' parts := by
  rw [countsAlike_cons_iff next next', and_iff_right]
  · rintro name same
    cases same
    cases unnamed
  · intro before after split
    exact ⟨counted_other unnamed, counted_other unnamed⟩

/-- Behind an explicit value both counts go on from it. -/
theorem countsAlike_explicit {k : Kind} {n : Nat} (reads : k.toNat? = some n) :
    CountsAlike shared next next' (kept (.ident name) :: kept .equals :: kept k :: parts) ↔
      CountsAlike shared (n + ownStep shared name) (n + ownStep shared name) parts := by
  have step (next : Nat) (ks : List Kind) :
      counted shared next (.ident name :: .equals :: k :: ks) =
        counted shared (n + ownStep shared name) ks := by
    rw [counted, reads, Option.getD_some]
  constructor
  · intro alike before own after split isOwn noValue
    have whole := alike (kept (.ident name) :: kept .equals :: kept k :: before) own after
      (by rw [split]; rfl) isOwn noValue
    simpa only [wholeKinds_kept, leftKinds_kept, step] using whole
  · intro alike before own after split isOwn noValue
    match before with
    | [] =>
      obtain ⟨-, rfl⟩ := List.cons.inj split
      exact absurd rfl noValue
    | [_] => cases split
    | [_, _] =>
      cases split
      cases reads
    | _ :: _ :: _ :: before =>
      simp only [List.cons_append, List.cons.injEq] at split
      obtain ⟨rfl, rfl, rfl, rest⟩ := split
      simp only [wholeKinds_kept, leftKinds_kept, step]
      exact alike before own after rest isOwn noValue

/-! ### Listing what is left -/

theorem entered_foreign (foreign : ¬ IsOwn shared name) (value : Nat)
    (rest : Nat → Option (List (String × Nat))) : entered shared name value rest = rest value := by
  rw [IsOwn, Option.isSome_iff_ne_none, not_not] at foreign
  rw [entered, foreign]

/-- Two lists that start with one name are equal if its values are, and what is listed behind. -/
theorem entered_left_iff {value value' : Nat} {rest rest' : Nat → Option (List (String × Nat))}
    {l : List (String × Nat)} {same : Prop} (listed : entered shared name value rest = some l)
    (later : ∀ l', rest (value + ownStep shared name) = some l' →
      (rest' (value' + ownStep shared name) = some l' ↔ same)) :
    entered shared name value' rest' = some l ↔ (IsOwn shared name → value = value') ∧ same := by
  cases lead : Text.dropLead? shared name with
  | none =>
    have foreign : ¬ IsOwn shared name := by
      rw [IsOwn, lead]
      simp
    rw [entered_foreign foreign] at listed ⊢
    rw [ownStep_of_foreign foreign, Nat.add_zero, Nat.add_zero] at later
    rw [later l listed, and_iff_right fun own => absurd own foreign]
  | some short =>
    have own : IsOwn shared name := by
      rw [IsOwn, lead]
      rfl
    rw [ownStep, if_pos own] at later
    rw [entered, lead] at listed
    simp only [Option.ite_none_right_eq_some, Option.map_eq_some_iff] at listed
    obtain ⟨bound, l', behind, rfl⟩ := listed
    rw [entered, lead]
    simp only [Option.ite_none_right_eq_some, Option.map_eq_some_iff, List.cons.injEq,
      Prod.mk.injEq, true_and]
    rw [← later l' behind]
    constructor
    · rintro ⟨-, _, found, rfl, rfl⟩
      exact ⟨fun _ => rfl, found⟩
    · rintro ⟨values, found⟩
      obtain rfl := values own
      exact ⟨bound, l', found, rfl, rfl⟩

theorem exists_of_entered {value : Nat} {rest : Nat → Option (List (String × Nat))}
    {l : List (String × Nat)} (listed : entered shared name value rest = some l) :
    ∃ next l', rest next = some l' := by
  unfold entered at listed
  split at listed
  · exact ⟨value, l, listed⟩
  · obtain ⟨-, inner⟩ := Option.ite_none_right_eq_some.mp listed
    obtain ⟨l', behind, -⟩ := Option.map_eq_some_iff.mp inner
    exact ⟨value + 1, l', behind⟩

theorem head?_closed (noValue : ks.head? ≠ some .equals) (rest : List Kind) :
    (ks ++ .closeBrace :: rest).head? ≠ some .equals := by
  cases ks with
  | nil => simp
  | cons k r => exact noValue

theorem Deletable.tail {p : BodyPart} (deletable : Deletable shared (p :: parts)) :
    Deletable shared parts where
  unclosed member := deletable.unclosed (List.mem_cons_of_mem _ member)
  foreign name value member := deletable.foreign name value (List.mem_cons_of_mem _ member)
  apart := deletable.apart.tail

/-- Behind a deleted enumerator stands no value. -/
theorem Deletable.noValue {value : Option Kind}
    (deletable : Deletable shared (deleted name value :: parts)) :
    parts.head? ≠ some (kept .equals) := by
  intro equals
  exact (List.isChain_cons.mp deletable.apart).1 _ equals rfl rfl

theorem Deletable.not_isOwn {value : Option Kind}
    (deletable : Deletable shared (deleted name value :: parts)) : ¬ IsOwn shared name := by
  rw [IsOwn, deletable.foreign name value List.mem_cons_self]
  simp

/-- A name and `=` are read with a value of their own. -/
theorem exists_of_listing_value {rest : List Kind} {l : List (String × Nat)}
    (listed : listing shared next
      (.ident name :: .equals :: (wholeKinds parts ++ .closeBrace :: rest)) = some l) :
    ∃ k n r, parts = kept k :: r ∧ k.toNat? = some n ∧
      ∃ next' l', listing shared next' (wholeKinds r ++ .closeBrace :: rest) = some l' := by
  match parts with
  | [] | deleted other none :: r | deleted other (some k) :: r => cases listed
  | kept k :: r =>
    simp only [wholeKinds_kept, List.cons_append] at listed
    rw [listing, Option.bind_eq_some_iff] at listed
    obtain ⟨n, reads, listed⟩ := listed
    exact ⟨k, n, r, rfl, reads, exists_of_entered listed⟩

/-- What can be read has one of the forms of a body. -/
theorem isBody_of_listing {parts : List BodyPart} {next : Nat} {rest : List Kind}
    {l : List (String × Nat)} (deletable : Deletable shared parts)
    (listed : listing shared next (wholeKinds parts ++ .closeBrace :: rest) = some l) :
    IsBody shared parts := by
  match parts with
  | [] => exact .nil
  | deleted name none :: r =>
    rw [wholeKinds_deleted, List.cons_append, listing_name _ _ _ (by simp),
      entered_foreign deletable.not_isOwn, List.cons_append, listing_other (by simp) rfl] at listed
    exact .deleted (isBody_of_listing deletable.tail listed) deletable.not_isOwn deletable.noValue
  | deleted name (some k) :: r =>
    simp only [wholeKinds_deletedValue, List.cons_append] at listed
    rw [listing, Option.bind_eq_some_iff] at listed
    obtain ⟨n, reads, listed⟩ := listed
    rw [entered_foreign deletable.not_isOwn, listing_other (by simp) rfl] at listed
    exact .deletedValue (isBody_of_listing deletable.tail listed) deletable.not_isOwn reads
      deletable.noValue
  | kept k :: r =>
    rw [wholeKinds_kept, List.cons_append] at listed
    by_cases notClose : k = .closeBrace
    · exact absurd (notClose ▸ List.mem_cons_self) deletable.unclosed
    cases named : k.name? with
    | none =>
      rw [listing_other notClose named] at listed
      exact .other (isBody_of_listing deletable.tail listed) named notClose
    | some name =>
      obtain rfl := Kind.name?_eq_some_iff.mp named
      by_cases noValue : r.head? = some (kept .equals)
      · obtain ⟨s, rfl⟩ := List.head?_eq_some_iff.mp noValue
        obtain ⟨k, n, s, rfl, reads, next', l', later⟩ := exists_of_listing_value listed
        exact .explicit (isBody_of_listing deletable.tail.tail.tail later) reads
      · rw [listing_name _ _ _ (head?_closed (head?_wholeKinds noValue) rest)] at listed
        obtain ⟨next', l', later⟩ := exists_of_entered listed
        exact .name (isBody_of_listing deletable.tail later) noValue
termination_by parts.length
decreasing_by all_goals subst_vars; simp only [List.length_cons]; omega

/-- What is left of a body lists the same exactly if it counts alike. -/
theorem IsBody.listing_left_iff (body : IsBody shared parts) {rest rest' : List Kind}
    {l : List (String × Nat)}
    (listed : listing shared next (wholeKinds parts ++ .closeBrace :: rest) = some l) :
    listing shared next' (leftKinds parts ++ .closeBrace :: rest') = some l ↔
      CountsAlike shared next next' parts := by
  induction body generalizing next next' l with
  | nil =>
    cases listed
    exact iff_of_true rfl (countsAlike_nil shared next next')
  | @deleted parts name later foreign noValue ih =>
    rw [countsAlike_deleted foreign]
    refine ih ?_
    rwa [wholeKinds_deleted, List.cons_append, listing_name _ _ _ (by simp),
      entered_foreign foreign, List.cons_append, listing_other (by simp) rfl] at listed
  | @deletedValue parts name k n later foreign reads noValue ih =>
    rw [countsAlike_deletedValue foreign reads]
    refine ih ?_
    simp only [wholeKinds_deletedValue, List.cons_append] at listed
    rwa [listing, reads, Option.bind_some, entered_foreign foreign,
      listing_other (by simp) rfl] at listed
  | @explicit parts name k n later reads ih =>
    simp only [wholeKinds_kept, leftKinds_kept, List.cons_append] at listed ⊢
    rw [listing, reads, Option.bind_some] at listed ⊢
    rw [countsAlike_explicit reads, entered_left_iff listed fun l' => ih,
      and_iff_right fun _ => rfl]
  | @name parts name later noValue ih =>
    simp only [wholeKinds_kept, leftKinds_kept, List.cons_append] at listed ⊢
    rw [listing_name _ _ _ (head?_closed (head?_wholeKinds noValue) rest)] at listed
    rw [listing_name _ _ _ (head?_closed (later.head?_leftKinds noValue) rest'),
      countsAlike_name later noValue]
    exact entered_left_iff listed fun l' => ih
  | @other parts k later unnamed notClose ih =>
    simp only [wholeKinds_kept, leftKinds_kept, List.cons_append] at listed ⊢
    rw [listing_other notClose unnamed] at listed ⊢
    rw [countsAlike_other unnamed]
    exact ih listed

/-- Without values among what is deleted, all counts are alike. -/
theorem IsBody.countsAlike (body : IsBody shared parts)
    (noValues : ∀ name k, BodyPart.deleted name (some k) ∉ parts) (next : Nat) :
    CountsAlike shared next next parts := by
  induction body generalizing next with
  | nil => exact countsAlike_nil shared next next
  | deleted later foreign noValue ih =>
    exact (countsAlike_deleted foreign).mpr
      (ih (fun n k member => noValues n k (List.mem_cons_of_mem _ member)) next)
  | deletedValue later foreign reads noValue ih => exact absurd List.mem_cons_self (noValues _ _)
  | explicit later reads ih =>
    exact (countsAlike_explicit reads).mpr (ih (fun n k member => noValues n k
      (List.mem_cons_of_mem _ (List.mem_cons_of_mem _ (List.mem_cons_of_mem _ member)))) _)
  | name later noValue ih =>
    exact (countsAlike_name later noValue).mpr
      ⟨fun _ => rfl, ih (fun n k member => noValues n k (List.mem_cons_of_mem _ member)) _⟩
  | other later unnamed notClose ih =>
    exact (countsAlike_other unnamed).mpr
      (ih (fun n k member => noValues n k (List.mem_cons_of_mem _ member)) next)

end

/-! ### Sources without foreign enumerators -/

/-- An enumeration is found in a source, and its body has tokens of these kinds. -/
def HasBody (source enum : String) (ks : List Kind) : Prop :=
  ∃ rest, (afterEnumHead enum (Token.scan source.toList 1).tokens).map (·.map (·.kind)) =
    some (ks ++ .closeBrace :: rest)

/-- A source is read, with these names and values. -/
def ReadsAs (source enum shared : String) (values : List (String × Int)) : Prop :=
  ∃ es, readEnum source enum shared = .ok es ∧ es.map (fun e => (e.name, e.value)) = values

variable {source source' enum shared : String} {parts : List BodyPart}

theorem readsAs_iff {values : List (String × Int)} : ReadsAs source enum shared values ↔
    (readEnum source enum shared).toOption.map (·.map fun e => (e.name, e.value)) =
      some values := by
  cases read : readEnum source enum shared with
  | error fault => simp [ReadsAs, read, Except.toOption]
  | ok es => simp [ReadsAs, read, Except.toOption]

instance (source enum shared : String) (values : List (String × Int)) :
    Decidable (ReadsAs source enum shared values) :=
  decidable_of_iff _ readsAs_iff.symm

/-- A source is read to what its body lists. -/
theorem HasBody.exists_listing {ks : List Kind} (body : HasBody source enum ks)
    (shared : String) : ∃ rest, ∀ values, ReadsAs source enum shared values ↔
      (listing shared 0 (ks ++ .closeBrace :: rest)).map
        (·.map fun (name, value) => (name, (value : Int))) = some values := by
  obtain ⟨rest, found⟩ := body
  obtain ⟨r, found, kinds⟩ := Option.map_eq_some_iff.mp found
  refine ⟨rest, fun values => ?_⟩
  rw [readsAs_iff, readEnum]
  simp only [found]
  rw [enumerators_listing, kinds]

/-- An enumeration that is read is also read without enumerators of other names, and lists the same
names with the same values, exactly if at each name without an explicit value the count has come to
the same. So it does if no explicit value is deleted. -/
theorem readsAs_left_iff {values : List (String × Int)} (deletable : Deletable shared parts)
    (whole : HasBody source enum (wholeKinds parts)) (left : HasBody source' enum (leftKinds parts))
    (read : ReadsAs source enum shared values) :
    (ReadsAs source' enum shared values ↔ CountsAlike shared 0 0 parts) ∧
      ((∀ name k, deleted name (some k) ∉ parts) → ReadsAs source' enum shared values) := by
  obtain ⟨rest, reads⟩ := whole.exists_listing shared
  obtain ⟨rest', reads'⟩ := left.exists_listing shared
  obtain ⟨l, listed, rfl⟩ := Option.map_eq_some_iff.mp ((reads values).mp read)
  have body := isBody_of_listing deletable listed
  have injective : Function.Injective fun p : String × Nat => (p.1, (p.2 : Int)) := by
    intro p q same
    exact Prod.ext (Prod.mk.inj same).1 (Int.ofNat.inj (Prod.mk.inj same).2)
  have same : ReadsAs source' enum shared (l.map fun (name, value) => (name, (value : Int))) ↔
      CountsAlike shared 0 0 parts := by
    rw [reads', ← Option.map_some (f := (List.map _)),
      (Option.map_injective (List.map_injective_iff.mpr injective)).eq_iff]
    exact body.listing_left_iff listed
  exact ⟨same, fun noValues => same.mpr (body.countsAlike noValues 0)⟩

/-- An enumeration of hooks with two names of another. -/
def mixedSource : String :=
  "enum HamType \x7b Ham_Spawn, Obj_First, Obj_Last, Ham_Use = 4, Ham_Touch \x7d;"

/-- The same without them. -/
def unmixedSource : String := "enum HamType \x7b Ham_Spawn, Ham_Use = 4, Ham_Touch \x7d;"

def mixedParts : List BodyPart :=
  [kept (.ident "Ham_Spawn"), kept .comma, deleted "Obj_First" none, deleted "Obj_Last" none,
    kept (.ident "Ham_Use"), kept .equals, kept (.number "4"), kept .comma,
    kept (.ident "Ham_Touch")]

theorem readsAs_left_mixed : Deletable hookShared mixedParts ∧
    HasBody mixedSource hookEnum (wholeKinds mixedParts) ∧
    ReadsAs unmixedSource hookEnum hookShared [("Spawn", 0), ("Use", 4), ("Touch", 5)] := by
  have deletable : Deletable hookShared mixedParts := by
    refine ⟨by decide, fun name value member => ?_, by decide⟩
    simp only [mixedParts, List.mem_cons, reduceCtorEq, deleted.injEq, List.not_mem_nil, or_false,
      false_or] at member
    rcases member with ⟨rfl, -⟩ | ⟨rfl, -⟩ <;> decide
  have whole : HasBody mixedSource hookEnum (wholeKinds mixedParts) :=
    ⟨[.semicolon], by decide +kernel⟩
  have left : HasBody unmixedSource hookEnum (leftKinds mixedParts) :=
    ⟨[.semicolon], by decide +kernel⟩
  exact ⟨deletable, whole,
    (readsAs_left_iff deletable whole left (by decide +kernel)).2 (by simp [mixedParts])⟩

/-- An enumeration of hooks with a foreign name that has an explicit value. -/
def valuedSource : String := "enum HamType \x7b Ham_A, Other = 10, Ham_B \x7d;"

/-- The same without it. -/
def unvaluedSource : String := "enum HamType \x7b Ham_A, Ham_B \x7d;"

def valuedParts : List BodyPart :=
  [kept (.ident "Ham_A"), kept .comma, deleted "Other" (some (.number "10")), kept (.ident "Ham_B")]

/-- The value of a foreign name counts for the name behind it. -/
theorem readsAs_valued : Deletable hookShared valuedParts ∧
    HasBody valuedSource hookEnum (wholeKinds valuedParts) ∧
    HasBody unvaluedSource hookEnum (leftKinds valuedParts) ∧
    ReadsAs valuedSource hookEnum hookShared [("A", 0), ("B", 10)] ∧
    ReadsAs unvaluedSource hookEnum hookShared [("A", 0), ("B", 1)] ∧
    ¬ ReadsAs unvaluedSource hookEnum hookShared [("A", 0), ("B", 10)] := by
  refine ⟨⟨by decide, fun name value member => ?_, by decide⟩, ⟨[.semicolon], by decide +kernel⟩,
    ⟨[.semicolon], by decide +kernel⟩, by decide +kernel, by decide +kernel, by decide +kernel⟩
  simp only [valuedParts, List.mem_cons, reduceCtorEq, deleted.injEq, List.not_mem_nil, or_false,
    false_or] at member
  obtain ⟨rfl, -⟩ := member
  decide

end Hook

end ScriptGlue
