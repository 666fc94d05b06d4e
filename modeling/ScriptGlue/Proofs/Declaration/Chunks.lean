import ScriptGlue.Declaration.Reading

/-!
# Cutting arguments apart

Arguments are cut apart at the commas that stand outside all parentheses, and they end where the
parenthesis before them is closed. Both can be told from the kinds of tokens, so chunks that are
joined by commas are cut apart again.
-/
namespace ScriptGlue

open Token (Kind)

/-- Whether parentheses match, where `depth` of them are open before. -/
def isBalanced : Nat → List Kind → Bool
  | depth, [] => depth == 0
  | depth, k :: r =>
    match k with
    | .openParen => isBalanced (depth + 1) r
    | .closeParen => depth != 0 && isBalanced (depth - 1) r
    | _ => isBalanced depth r

/-- Whether every comma stands inside parentheses, of which `depth` are open before. -/
def isCommaFree : Nat → List Kind → Bool
  | _, [] => true
  | depth, k :: r =>
    match k with
    | .openParen => isCommaFree (depth + 1) r
    | .closeParen => isCommaFree (depth - 1) r
    | .comma => depth != 0 && isCommaFree depth r
    | _ => isCommaFree depth r

/-- Puts a member into the first chunk. -/
def intoFirstChunk {α : Type} (a : α) : List (List α) → List (List α)
  | [] => [[a]]
  | chunk :: r => (a :: chunk) :: r

def commaChunks {α : Type} (kind : α → Kind) : Nat → List α → List (List α)
  | _, [] => [[]]
  | depth, a :: r =>
    match kind a with
    | .openParen => intoFirstChunk a (commaChunks kind (depth + 1) r)
    | .closeParen => intoFirstChunk a (commaChunks kind (depth - 1) r)
    | .comma =>
      if depth = 0 then [] :: commaChunks kind 0 r
      else intoFirstChunk a (commaChunks kind depth r)
    | _ => intoFirstChunk a (commaChunks kind depth r)

/-! ### Cutting -/

section Cutting

variable {α β : Type}

theorem map_intoFirstChunk (f : α → β) (a : α) (cs : List (List α)) :
    (intoFirstChunk a cs).map (List.map f) = intoFirstChunk (f a) (cs.map (List.map f)) := by
  cases cs <;> rfl

/-- Where to cut depends on kinds alone. -/
theorem commaChunks_map (f : α → β) (kind : β → Kind) (depth : Nat) (l : List α) :
    commaChunks kind depth (l.map f) =
      (commaChunks (fun a => kind (f a)) depth l).map (List.map f) := by
  induction l generalizing depth with
  | nil => rfl
  | cons a r ih =>
    rw [List.map_cons, commaChunks, commaChunks]
    split
    · simp only [ih, map_intoFirstChunk]
    · simp only [ih, map_intoFirstChunk]
    · split
      · simp only [ih, List.map_cons, List.map_nil]
      · simp only [ih, map_intoFirstChunk]
    · simp only [ih, map_intoFirstChunk]

theorem commaChunks_congr {kind kind' : α → Kind} {l : List α}
    (same : ∀ a ∈ l, kind a = kind' a) (depth : Nat) :
    commaChunks kind depth l = commaChunks kind' depth l := by
  induction l generalizing depth with
  | nil => rfl
  | cons a r ih =>
    have rest := ih fun b member => same b (List.mem_cons_of_mem _ member)
    rw [commaChunks, commaChunks, same a List.mem_cons_self]
    split <;> simp only [rest]

theorem splitCommas_eq (depth : Nat) (ts : List Token) :
    Declaration.splitCommas depth ts = commaChunks (·.kind) depth ts := by
  have into (t : Token) (cs : List (List Token)) :
      Declaration.intoFirst t cs = intoFirstChunk t cs := by
    cases cs <;> rfl
  induction ts generalizing depth with
  | nil => rfl
  | cons t r ih =>
    rw [Declaration.splitCommas.eq_def, commaChunks]
    cases hk : t.kind <;> cases depth <;> simp [hk, ih, into]

/-- The first chunk stands in front, and the others stand somewhere in the list. -/
theorem commaChunks_parts {kind : α → Kind} {depth : Nat} {l : List α} :
    (∀ c ∈ (commaChunks kind depth l).head?, c <+: l) ∧
      ∀ c ∈ (commaChunks kind depth l).tail, c <:+: l := by
  induction l generalizing depth with
  | nil => simp [commaChunks]
  | cons a r ih =>
    have into (cs : List (List α)) (first : ∀ c ∈ cs.head?, c <+: r)
        (others : ∀ c ∈ cs.tail, c <:+: r) :
        (∀ c ∈ (intoFirstChunk a cs).head?, c <+: a :: r) ∧
          ∀ c ∈ (intoFirstChunk a cs).tail, c <:+: a :: r := by
      cases cs with
      | nil => simp [intoFirstChunk]
      | cons d cs =>
        constructor
        · intro c member
          cases member
          exact List.cons_prefix_cons.mpr ⟨rfl, first d rfl⟩
        · intro c member
          exact (others c member).trans (List.suffix_cons a r).isInfix
    rw [commaChunks]
    split
    · exact into _ ih.1 ih.2
    · exact into _ ih.1 ih.2
    · split
      · have here := @ih 0
        refine ⟨by simp, fun c member => ?_⟩
        cases chunks : commaChunks kind 0 r with
        | nil => simp [chunks] at member
        | cons d cs =>
          rw [chunks] at here member
          rcases List.mem_cons.mp member with rfl | member
          · exact (here.1 c rfl).isInfix.trans (List.suffix_cons a r).isInfix
          · exact (here.2 c member).trans (List.suffix_cons a r).isInfix
      · exact into _ ih.1 ih.2
    · exact into _ ih.1 ih.2

theorem infix_of_mem_commaChunks {kind : α → Kind} {depth : Nat} {l c : List α}
    (member : c ∈ commaChunks kind depth l) : c <:+: l := by
  have parts := @commaChunks_parts α kind depth l
  cases chunks : commaChunks kind depth l with
  | nil => simp [chunks] at member
  | cons d cs =>
    rw [chunks] at parts member
    rcases List.mem_cons.mp member with rfl | member
    · exact (parts.1 c rfl).isInfix
    · exact parts.2 c member

theorem commaChunks_single {kind : α → Kind} {depth : Nat} {c : List α}
    (free : isCommaFree depth (c.map kind) = true) : commaChunks kind depth c = [c] := by
  induction c generalizing depth with
  | nil => rfl
  | cons a r ih =>
    rw [List.map_cons] at free
    rw [commaChunks]
    cases hk : kind a with
    | openParen =>
      rw [hk, isCommaFree] at free
      simp only [ih free, intoFirstChunk]
    | closeParen =>
      rw [hk, isCommaFree] at free
      simp only [ih free, intoFirstChunk]
    | comma =>
      rw [hk, isCommaFree, Bool.and_eq_true, bne_iff_ne] at free
      simp only [if_neg free.1, ih free.2, intoFirstChunk]
    | _ =>
      simp only [hk, isCommaFree] at free
      simp only [ih free, intoFirstChunk]

/-- A comma outside all parentheses ends a chunk. -/
theorem commaChunks_append {kind : α → Kind} {depth : Nat} {c : List α} {comma : α}
    (isComma : kind comma = .comma) (r : List α) (free : isCommaFree depth (c.map kind) = true)
    (balanced : isBalanced depth (c.map kind) = true) :
    commaChunks kind depth (c ++ comma :: r) = c :: commaChunks kind 0 r := by
  induction c generalizing depth with
  | nil =>
    have closed : depth = 0 := by simpa [isBalanced] using balanced
    rw [List.nil_append, commaChunks, closed]
    simp [isComma]
  | cons a t ih =>
    rw [List.map_cons] at free balanced
    rw [List.cons_append, commaChunks]
    cases hk : kind a with
    | openParen =>
      rw [hk, isCommaFree] at free
      rw [hk, isBalanced] at balanced
      simp only [ih free balanced, intoFirstChunk]
    | closeParen =>
      rw [hk, isCommaFree] at free
      rw [hk, isBalanced, Bool.and_eq_true] at balanced
      simp only [ih free balanced.2, intoFirstChunk]
    | comma =>
      rw [hk, isCommaFree, Bool.and_eq_true, bne_iff_ne] at free
      rw [hk, isBalanced] at balanced
      · simp only [if_neg free.1, ih free.2 balanced, intoFirstChunk]
      all_goals simp
    | _ =>
      simp only [hk, isCommaFree] at free
      simp only [hk, isBalanced] at balanced
      simp only [ih free balanced, intoFirstChunk]

/-- Chunks that are joined by commas are cut apart again. -/
theorem commaChunks_intercalate {kind : α → Kind} {comma : α} (isComma : kind comma = .comma)
    {cs : List (List α)} (ne : cs ≠ [])
    (free : ∀ c ∈ cs, isCommaFree 0 (c.map kind) = true)
    (balanced : ∀ c ∈ cs, isBalanced 0 (c.map kind) = true) :
    commaChunks kind 0 ([comma].intercalate cs) = cs := by
  induction cs with
  | nil => exact absurd rfl ne
  | cons c r ih =>
    cases r with
    | nil =>
      rw [List.intercalate_singleton]
      exact commaChunks_single (free c List.mem_cons_self)
    | cons d r =>
      have rest := ih (List.cons_ne_nil d r)
        (fun e member => free e (List.mem_cons_of_mem _ member))
        fun e member => balanced e (List.mem_cons_of_mem _ member)
      rw [List.intercalate_cons_cons, List.append_assoc, List.singleton_append,
        commaChunks_append isComma _ (free c List.mem_cons_self) (balanced c List.mem_cons_self),
        rest]

end Cutting

/-- What is balanced may be followed by what is. -/
theorem isBalanced_append {depth : Nat} {a b : List Kind} (first : isBalanced depth a = true)
    (second : isBalanced 0 b = true) : isBalanced depth (a ++ b) = true := by
  induction a generalizing depth with
  | nil =>
    have closed : depth = 0 := by simpa [isBalanced] using first
    rwa [List.nil_append, closed]
  | cons k r ih =>
    rw [List.cons_append]
    cases k with
    | closeParen =>
      rw [isBalanced, Bool.and_eq_true] at first ⊢
      exact ⟨first.1, ih first.2⟩
    | _ =>
      simp only [isBalanced] at first ⊢
      exact ih first

/-- Kinds without parentheses and commas are balanced and free of commas. -/
theorem isBalanced_of_flat {ks : List Kind}
    (flat : ∀ k ∈ ks, k ≠ .openParen ∧ k ≠ .closeParen ∧ k ≠ .comma) :
    isBalanced 0 ks = true ∧ isCommaFree 0 ks = true := by
  induction ks with
  | nil => exact ⟨rfl, rfl⟩
  | cons k r ih =>
    have here := flat k List.mem_cons_self
    have rest := ih fun j member => flat j (List.mem_cons_of_mem _ member)
    cases k with
    | openParen => exact absurd rfl here.1
    | closeParen => exact absurd rfl here.2.1
    | comma => exact absurd rfl here.2.2
    | _ => simpa only [isBalanced, isCommaFree] using rest

/-- What stands inside matched parentheses ends at the one that closes them. -/
theorem enclosed_of_isBalanced {ts : List Token} {close : Token}
    (closes : close.kind = .closeParen) (rest : List Token) {depth : Nat}
    (balanced : isBalanced depth (ts.map (·.kind)) = true) :
    Declaration.enclosed depth (ts ++ close :: rest) = some ts := by
  induction ts generalizing depth with
  | nil =>
    have closed : depth = 0 := by simpa [isBalanced] using balanced
    rw [List.nil_append, Declaration.enclosed.eq_def, closed]
    simp [closes]
  | cons t r ih =>
    rw [List.cons_append, Declaration.enclosed.eq_def]
    rw [List.map_cons] at balanced
    cases hk : t.kind with
    | closeParen =>
      rw [hk, isBalanced, Bool.and_eq_true, bne_iff_ne] at balanced
      obtain ⟨d, rfl⟩ := Nat.exists_eq_succ_of_ne_zero balanced.1
      simp [hk, @ih d balanced.2]
    | openParen =>
      rw [hk, isBalanced] at balanced
      simp [hk, ih balanced]
    | _ =>
      simp only [hk, isBalanced] at balanced
      simp [hk, ih balanced]

end ScriptGlue
