import ScriptGlue.Proofs.Access.Scanning
import ScriptGlue.Proofs.Access.Walking
import ScriptGlue.Proofs.Access.Windows
import ScriptGlue.Proofs.Source.Order
import ScriptGlue.Record.Scraping

/-!
# Scraping by position

The calls that define properties are found by index, and their arguments are kept as ranges of
indices. All ranges are ordered and inside, and behind every call the index has moved on.
-/
namespace ScriptGlue

open Checked (item range)
open Checked.Step (loop loop_done loop_next)

namespace ByPosition

/-! ### Calls -/

/-- The tokens from one index up to another, which is not part of it. -/
abbrev Range := Nat × Nat

/-- What has been found in a call so far: how many brackets are open, where the current argument
starts, and the arguments before it. -/
structure CallScan where
  depth : Nat
  start : Nat
  args : List Range

def callStep (tokens : List Token) :
    Checked.Step (Nat × CallScan) (Option (List Range × Nat))
  | (i, s) =>
    if i < tokens.length then do
      let t ← item tokens i
      if RecordProperty.isOpener t.kind then return .inl (i + 1, { s with depth := s.depth + 1 })
      else if RecordProperty.isCloser t.kind then
        if s.depth - 1 = 0 then
          let args := if s.start < i then s.args ++ [(s.start, i)] else s.args
          return .inr (some (args, i + 1))
        else return .inl (i + 1, { s with depth := s.depth - 1 })
      else if t.kind = .comma ∧ s.depth = 1 then
        return .inl (i + 1, { s with start := i + 1, args := s.args ++ [(s.start, i)] })
      else if t.kind = .stop then return .inr none
      else return .inl (i + 1, s)
    else pure (.inr none)

/-- The arguments of the call whose parenthesis is at an index, and the index behind the call. -/
def callArguments (tokens : List Token) (paren : Nat) : Checked (Option (List Range × Nat)) :=
  loop (callStep tokens) (paren, ⟨0, paren + 1, []⟩)

/-- A range is ordered and inside, and if it is empty then a comma stands behind it. -/
structure IsRange (tokens : List Token) (r : Range) : Prop where
  ordered : r.1 ≤ r.2
  inside : r.2 < tokens.length
  comma : r.1 = r.2 → ∃ t, tokens[r.2]? = some t ∧ t.kind = .comma

/-- What holds of a call while its tokens are taken. -/
structure CallScan.Sound (tokens : List Token) (i : Nat) (s : CallScan) : Prop where
  ranges : ∀ r ∈ s.args, IsRange tokens r
  start_le_succ : s.start ≤ i + 1
  start_le : 0 < s.depth → s.start ≤ i

/-- What a call comes to: ranges and an index that are inside. -/
structure IsCall (tokens : List Token) (args : List Range) (next : Nat) : Prop where
  ranges : ∀ r ∈ args, IsRange tokens r
  inside : next ≤ tokens.length

/-- A range that ends where a comma stands may be empty. -/
theorem IsRange.of_comma {tokens : List Token} {start i : Nat} {t : Token} (ordered : start ≤ i)
    (here : tokens[i]? = some t) (comma : t.kind = .comma) : IsRange tokens (start, i) where
  ordered := ordered
  inside := (List.getElem?_eq_some_iff.mp here).1
  comma := fun _ => ⟨t, here, comma⟩

/-- Taking a token keeps all ranges inside. -/
theorem callStep_sound {tokens : List Token} {i : Nat} {s : CallScan} (sound : s.Sound tokens i)
    (inside : i < tokens.length) :
    (∃ t, callStep tokens (i, s) = pure (.inl (i + 1, t)) ∧ t.Sound tokens (i + 1)) ∨
      ∃ out, callStep tokens (i, s) = pure (.inr out) ∧
        ∀ p ∈ out, IsCall tokens p.1 p.2 := by
  have here : tokens[i]? = some tokens[i] := List.getElem?_eq_getElem inside
  have start := sound.start_le_succ
  have later := sound.start_le
  have goesOn (depth : Nat) : CallScan.Sound tokens (i + 1) { s with depth := depth } :=
    ⟨sound.ranges, by simp only; omega, fun _ => start⟩
  rw [callStep, if_pos inside, Checked.item_eq here, pure_bind]
  split
  · exact .inl ⟨_, rfl, goesOn _⟩
  split
  · split
    · refine .inr ⟨_, rfl, fun p member => ?_⟩
      obtain rfl := Option.mem_some_iff.mp member
      refine ⟨fun r isArg => ?_, inside⟩
      dsimp only at isArg
      split at isArg
      · rcases List.mem_append.mp isArg with before | last
        · exact sound.ranges r before
        · -- a last argument is kept only if it has tokens
          obtain rfl := List.mem_singleton.mp last
          exact ⟨by simp only; omega, inside, by simp only; omega⟩
      · exact sound.ranges r isArg
    · exact .inl ⟨_, rfl, goesOn _⟩
  split
  · rename_i comma
    refine .inl ⟨_, rfl, fun r isArg => ?_, by simp only; omega, fun _ => Nat.le_refl _⟩
    rcases List.mem_append.mp isArg with before | last
    · exact sound.ranges r before
    · obtain rfl := List.mem_singleton.mp last
      exact .of_comma (later (by omega)) here comma.1
  split
  · exact .inr ⟨none, rfl, by simp⟩
  · exact .inl ⟨_, rfl, goesOn _⟩

/-- A call is scanned without leaving the tokens. -/
theorem callArguments_inside (tokens : List Token) (paren : Nat) :
    ∃ out, callArguments tokens paren = pure out ∧ ∀ p ∈ out, IsCall tokens p.1 p.2 := by
  have run (left i : Nat) (s : CallScan) (length : tokens.length - i = left)
      (sound : s.Sound tokens i) : ∃ out, loop (callStep tokens) (i, s) = pure out ∧
        ∀ p ∈ out, IsCall tokens p.1 p.2 := by
    -- every step that goes on takes a token, so the loop ends with the tokens
    induction left generalizing i s with
    | zero => exact ⟨none, loop_done (if_neg (by omega)), by simp⟩
    | succ left ih =>
      rcases callStep_sound sound (by omega) with ⟨t, step, next⟩ | ⟨out, step, isCall⟩
      · rw [loop_next step]
        exact ih (i + 1) t (by omega) next
      · exact ⟨out, loop_done step, isCall⟩
  exact run _ paren _ rfl ⟨by simp, Nat.le_refl _, by simp⟩

/-! ### Arguments -/

/-- A range holds the tokens of an argument. -/
def Holds (tokens : List Token) (r : Range) (arg : List Token) : Prop :=
  range tokens r.1 r.2 = pure arg

/-- Nothing after the last comma is no argument. -/
def dropLastEmpty (parts : List (List Token)) : List (List Token) :=
  if parts.getLast? = some [] then parts.dropLast else parts

/-- Puts what is held of the first argument in front of the others. -/
def begun (held : List Token) : List (List Token) → List (List Token)
  | [] => [held]
  | part :: r => (held ++ part) :: r

/-- The arguments ahead, of which the first is begun, and the tokens behind the call. -/
def argumentsAhead (depth : Nat) (held ahead : List Token) :
    Option (List (List Token) × List Token) :=
  (RecordProperty.enclosed depth ahead).map fun (inner, rest) =>
    (dropLastEmpty (begun held (RecordProperty.splitCommas depth inner)), rest)

theorem begun_intoFirst (held : List Token) (t : Token) (parts : List (List Token)) :
    begun held (RecordProperty.intoFirst t parts) = begun (held ++ [t]) parts := by
  cases parts <;> simp [RecordProperty.intoFirst, begun]

theorem parts_ne_nil (depth : Nat) (ts : List Token) :
    RecordProperty.splitCommas depth ts ≠ [] := by
  have into (t : Token) (parts : List (List Token)) : RecordProperty.intoFirst t parts ≠ [] := by
    cases parts <;> simp [RecordProperty.intoFirst]
  cases ts with
  | nil => simp [RecordProperty.splitCommas]
  | cons t r =>
    rw [RecordProperty.splitCommas]
    split
    · exact into t _
    split
    · exact into t _
    split
    · exact List.cons_ne_nil _ _
    · exact into t _

theorem dropLastEmpty_cons (part : List Token) {parts : List (List Token)} (filled : parts ≠ []) :
    dropLastEmpty (part :: parts) = part :: dropLastEmpty parts := by
  obtain ⟨u, r, rfl⟩ := List.exists_cons_of_ne_nil filled
  rw [dropLastEmpty, dropLastEmpty, List.getLast?_cons_cons]
  split <;> rfl

section

variable {depth : Nat} {held r : List Token} {t : Token}

/-- A token is taken as both the enclosed tokens and the cuts at commas take it. -/
theorem argumentsAhead_cons {depth' : Nat} {held' : List Token} (lead : List (List Token))
    (encloses : RecordProperty.enclosed depth (t :: r) =
      (RecordProperty.enclosed depth' r).map fun (inner, rest) => (t :: inner, rest))
    (cuts : ∀ inner, dropLastEmpty (begun held (RecordProperty.splitCommas depth (t :: inner))) =
      lead ++ dropLastEmpty (begun held' (RecordProperty.splitCommas depth' inner))) :
    argumentsAhead depth held (t :: r) =
      (argumentsAhead depth' held' r).map fun (parts, rest) => (lead ++ parts, rest) := by
  rw [argumentsAhead, argumentsAhead, encloses, Option.map_map, Option.map_map]
  refine congrArg (Option.map · _) (funext fun p => ?_)
  obtain ⟨inner, rest⟩ := p
  simp only [Function.comp_apply, cuts]

/-- A token that is no cut goes to what is held. -/
theorem argumentsAhead_into {depth' : Nat}
    (encloses : RecordProperty.enclosed depth (t :: r) =
      (RecordProperty.enclosed depth' r).map fun (inner, rest) => (t :: inner, rest))
    (cuts : ∀ inner, RecordProperty.splitCommas depth (t :: inner) =
      RecordProperty.intoFirst t (RecordProperty.splitCommas depth' inner)) :
    argumentsAhead depth held (t :: r) = argumentsAhead depth' (held ++ [t]) r := by
  rw [argumentsAhead_cons [] encloses fun inner => by
    rw [cuts, begun_intoFirst, List.nil_append]]
  simp

theorem argumentsAhead_open (opens : RecordProperty.isOpener t.kind = true) :
    argumentsAhead depth held (t :: r) = argumentsAhead (depth + 1) (held ++ [t]) r := by
  refine argumentsAhead_into ?_ fun inner => ?_
  · simp only [RecordProperty.enclosed, opens, if_true]
  · simp only [RecordProperty.splitCommas, opens, if_true]

/-- An inner bracket that is closed goes to what is held. -/
theorem argumentsAhead_close (notOpen : RecordProperty.isOpener t.kind = false)
    (closes : RecordProperty.isCloser t.kind = true) :
    argumentsAhead (depth + 1) held (t :: r) = argumentsAhead depth (held ++ [t]) r := by
  refine argumentsAhead_into ?_ fun inner => ?_
  · simp only [RecordProperty.enclosed, notOpen, closes, if_true, Bool.false_eq_true, if_false]
  · simp only [RecordProperty.splitCommas, notOpen, closes, if_true, Bool.false_eq_true, if_false,
      Nat.add_sub_cancel]

/-- The bracket that closes the call completes the last argument. -/
theorem argumentsAhead_end (notOpen : RecordProperty.isOpener t.kind = false)
    (closes : RecordProperty.isCloser t.kind = true) :
    argumentsAhead 0 held (t :: r) = some (dropLastEmpty [held], r) := by
  simp [argumentsAhead, RecordProperty.enclosed, notOpen, closes, RecordProperty.splitCommas, begun]

/-- A comma outside inner brackets completes an argument. -/
theorem argumentsAhead_comma (parts : t.kind = .comma) :
    argumentsAhead 0 held (t :: r) =
      (argumentsAhead 0 [] r).map fun (parts, rest) => (held :: parts, rest) := by
  refine argumentsAhead_cons [held] ?_ fun inner => ?_
  · simp [RecordProperty.enclosed, parts, RecordProperty.isOpener, RecordProperty.isCloser]
  · obtain ⟨part, more, cut⟩ := List.exists_cons_of_ne_nil (parts_ne_nil 0 inner)
    simp [RecordProperty.splitCommas, parts, RecordProperty.isOpener, RecordProperty.isCloser, cut,
      begun, dropLastEmpty_cons]

/-- Any other token goes to what is held. -/
theorem argumentsAhead_other (notOpen : RecordProperty.isOpener t.kind = false)
    (notClose : RecordProperty.isCloser t.kind = false) (inside : ¬ (t.kind = .comma ∧ depth = 0)) :
    argumentsAhead depth held (t :: r) = argumentsAhead depth (held ++ [t]) r := by
  refine argumentsAhead_into ?_ fun inner => ?_
  · simp only [RecordProperty.enclosed, notOpen, notClose, Bool.false_eq_true, if_false]
  · simp only [RecordProperty.splitCommas, notOpen, notClose, Bool.false_eq_true, if_false,
      if_neg inside]

end

/-- Where nothing is held yet, the arguments ahead are those of the call. -/
theorem argumentsAhead_nil (ts : List Token) :
    argumentsAhead 0 [] ts = (RecordProperty.enclosed 0 ts).map fun (inner, rest) =>
      (RecordProperty.arguments inner, rest) := by
  refine congrArg (Option.map · _) (funext fun p => ?_)
  obtain ⟨inner, rest⟩ := p
  obtain ⟨part, more, cut⟩ := List.exists_cons_of_ne_nil (parts_ne_nil 0 inner)
  simp only [cut, begun, List.nil_append, dropLastEmpty, RecordProperty.arguments]

/-- What is found of a call by index and without one. -/
inductive Finds (tokens : List Token) (stop : Span) (parts : List (List Token)) :
    Option (List Range × Nat) → Option (List (List Token) × List Token) → Prop
  | none : Finds tokens stop parts none none
  | some {args : List Range} {more : List (List Token)} {rest : List Token} {next : Nat}
    (holds : List.Forall₂ (Holds tokens) args (parts ++ more))
    (behind : Token.Stream.StandsAt ⟨rest, stop⟩ tokens next) :
    Finds tokens stop parts (some (args, next)) (some (more, rest))

theorem Finds.eq_none {tokens : List Token} {stop : Span} {parts : List (List Token)}
    {out : Option (List Range × Nat)} (finds : Finds tokens stop parts out Option.none) :
    out = Option.none := by
  cases finds with
  | none => rfl

/-- What is found by index holds the arguments that are found by lists. -/
theorem Finds.exists_args {tokens : List Token} {stop : Span} {parts more : List (List Token)}
    {rest : List Token} {out : Option (List Range × Nat)}
    (finds : Finds tokens stop parts out (Option.some (more, rest))) :
    ∃ args next, out = Option.some (args, next) ∧
      List.Forall₂ (Holds tokens) args (parts ++ more) ∧
      Token.Stream.StandsAt ⟨rest, stop⟩ tokens next := by
  cases finds with
  | some holds behind => exact ⟨_, _, rfl, holds, behind⟩

/-- A comma puts what is held behind the arguments that are complete. -/
theorem Finds.comma {tokens held : List Token} {stop : Span} {parts : List (List Token)}
    {out : Option (List Range × Nat)} {found : Option (List (List Token) × List Token)}
    (finds : Finds tokens stop (parts ++ [held]) out found) :
    Finds tokens stop parts out (found.map fun (more, rest) => (held :: more, rest)) := by
  cases finds with
  | none => exact .none
  | some holds behind => exact .some (by rwa [List.append_cons]) behind

/-- An index stands behind what is held of an argument. -/
structure Holding (tokens held : List Token) (start i : Nat) (s : Token.Stream) : Prop where
  begins : tokens.drop start = held ++ s.all
  width : start + held.length = i

namespace Holding

variable {tokens held : List Token} {start i : Nat} {s : Token.Stream}

theorem stands (holding : Holding tokens held start i s) : s.StandsAt tokens i where
  left := by rw [← holding.width, ← List.drop_drop, holding.begins, List.drop_left]

theorem holds (holding : Holding tokens held start i s) : Holds tokens (start, i) held := by
  have length := holding.stands.length_eq
  have width := holding.width
  rw [Holds, Checked.range_eq (by simp only; omega) (by simp only; omega), holding.begins, ← width,
    Nat.add_sub_cancel_left, List.take_left]

variable {t : Token} {r : List Token} {stop : Span}

theorem take (holding : Holding tokens held start i ⟨t :: r, stop⟩) :
    Holding tokens (held ++ [t]) start (i + 1) ⟨r, stop⟩ where
  begins := by
    rw [holding.begins, List.append_assoc]
    rfl
  width := by
    rw [List.length_append, ← Nat.add_assoc, holding.width]
    rfl

theorem next (holding : Holding tokens held start i ⟨t :: r, stop⟩) :
    Holding tokens [] (i + 1) (i + 1) ⟨r, stop⟩ where
  begins := by
    rw [← List.drop_drop, holding.stands.left]
    rfl
  width := rfl

end Holding

/-! The step of the scan at a token that stands at the index, one lemma for each way to take it. -/

section

variable {tokens r : List Token} {t : Token} {stop : Span} {i depth start : Nat} {args : List Range}

theorem callStep_at (stands : Token.Stream.StandsAt ⟨t :: r, stop⟩ tokens i) {s : CallScan} :
    callStep tokens (i, s) =
      if RecordProperty.isOpener t.kind then pure (.inl (i + 1, { s with depth := s.depth + 1 }))
      else if RecordProperty.isCloser t.kind then
        if s.depth - 1 = 0 then
          pure (.inr (some (if s.start < i then s.args ++ [(s.start, i)] else s.args, i + 1)))
        else pure (.inl (i + 1, { s with depth := s.depth - 1 }))
      else if t.kind = .comma ∧ s.depth = 1 then
        pure (.inl (i + 1, { s with start := i + 1, args := s.args ++ [(s.start, i)] }))
      else if t.kind = .stop then pure (.inr none)
      else pure (.inl (i + 1, s)) := by
  have length := stands.length_eq
  have inside : i < tokens.length := by simp only [List.length_cons] at length; omega
  have here : item tokens i = pure t := stands.item_eq
  rw [callStep, if_pos inside, here, pure_bind]

theorem callStep_open (stands : Token.Stream.StandsAt ⟨t :: r, stop⟩ tokens i)
    (opens : RecordProperty.isOpener t.kind = true) :
    callStep tokens (i, ⟨depth, start, args⟩) =
      pure (.inl (i + 1, ⟨depth + 1, start, args⟩)) := by
  rw [callStep_at stands, if_pos opens]

/-- The last bracket ends the call. What stands before it is an argument unless it is nothing. -/
theorem callStep_end (stands : Token.Stream.StandsAt ⟨t :: r, stop⟩ tokens i)
    (notOpen : RecordProperty.isOpener t.kind = false)
    (closes : RecordProperty.isCloser t.kind = true) :
    callStep tokens (i, ⟨1, start, args⟩) =
      pure (.inr (some (if start < i then args ++ [(start, i)] else args, i + 1))) := by
  rw [callStep_at stands, if_neg (by simp [notOpen]), if_pos closes, if_pos (Nat.sub_self 1)]

theorem callStep_close (stands : Token.Stream.StandsAt ⟨t :: r, stop⟩ tokens i)
    (notOpen : RecordProperty.isOpener t.kind = false)
    (closes : RecordProperty.isCloser t.kind = true) :
    callStep tokens (i, ⟨depth + 2, start, args⟩) =
      pure (.inl (i + 1, ⟨depth + 1, start, args⟩)) := by
  rw [callStep_at stands, if_neg (by simp [notOpen]), if_pos closes, if_neg (by simp)]
  rfl

/-- A comma outside all inner brackets ends an argument. -/
theorem callStep_comma (stands : Token.Stream.StandsAt ⟨t :: r, stop⟩ tokens i)
    (comma : t.kind = .comma) :
    callStep tokens (i, ⟨1, start, args⟩) =
      pure (.inl (i + 1, ⟨1, i + 1, args ++ [(start, i)]⟩)) := by
  rw [callStep_at stands, if_neg (by simp [comma, RecordProperty.isOpener]),
    if_neg (by simp [comma, RecordProperty.isCloser]), if_pos ⟨comma, rfl⟩]

/-- Any other token is passed. -/
theorem callStep_other (stands : Token.Stream.StandsAt ⟨t :: r, stop⟩ tokens i)
    (notOpen : RecordProperty.isOpener t.kind = false)
    (notClose : RecordProperty.isCloser t.kind = false)
    (inside : ¬ (t.kind = .comma ∧ depth = 0)) (notStop : t.kind ≠ .stop) :
    callStep tokens (i, ⟨depth + 1, start, args⟩) =
      pure (.inl (i + 1, ⟨depth + 1, start, args⟩)) := by
  rw [callStep_at stands, if_neg (by simp [notOpen]), if_neg (by simp [notClose]),
    if_neg (by simpa using inside), if_neg notStop]

end

/-- The last range of a call is kept exactly if it holds tokens. -/
theorem Holding.last {tokens held : List Token} {start i : Nat} {s : Token.Stream}
    (holding : Holding tokens held start i s) {args : List Range} {parts : List (List Token)}
    (holds : List.Forall₂ (Holds tokens) args parts) :
    List.Forall₂ (Holds tokens) (if start < i then args ++ [(start, i)] else args)
      (parts ++ dropLastEmpty [held]) := by
  have width := holding.width
  by_cases empty : held = []
  · have same : dropLastEmpty [[]] = [] := rfl
    rw [if_neg (by simp [empty] at width; omega), empty, same, List.append_nil]
    exact holds
  · have filled := List.length_pos_iff.mpr empty
    have same : dropLastEmpty [held] = [held] := if_neg (by simpa using empty)
    rw [if_pos (by omega), same]
    exact List.rel_append holds (.cons holding.holds .nil)

/-- The arguments of a call are the tokens in its ranges. -/
theorem callArguments_run {tokens held : List Token} {s : Token.Stream}
    (solid : ∀ t ∈ s.tokens, t.kind ≠ .stop) {depth start i : Nat}
    (holding : Holding tokens held start i s) {args : List Range} {parts : List (List Token)}
    (holds : List.Forall₂ (Holds tokens) args parts) :
    ∃ out, loop (callStep tokens) (i, ⟨depth + 1, start, args⟩) = pure out ∧
      Finds tokens s.stop parts out (argumentsAhead depth held s.tokens) := by
  obtain ⟨ahead, stop⟩ := s
  -- by induction on the tokens ahead, with `holding` for the argument that is begun and `holds` for
  -- the arguments before it
  induction ahead generalizing held depth start i args parts with
  | nil =>
    have length := holding.stands.length_eq
    refine ⟨none, loop_done ?_, .none⟩
    rw [callStep, if_pos (by omega), holding.stands.item_eq]
    rfl
  | cons t r ih =>
    have stands := holding.stands
    have solidTail : ∀ u ∈ r, u.kind ≠ .stop := fun u member =>
      solid u (List.mem_cons_of_mem _ member)
    dsimp only
    rcases Bool.eq_false_or_eq_true (RecordProperty.isOpener t.kind) with opens | notOpen
    · rw [loop_next (callStep_open stands opens), argumentsAhead_open opens]
      exact ih holds solidTail holding.take
    rcases Bool.eq_false_or_eq_true (RecordProperty.isCloser t.kind) with closes | notClose
    · cases depth with
      | zero =>
        refine ⟨_, loop_done (callStep_end stands notOpen closes), ?_⟩
        rw [argumentsAhead_end notOpen closes]
        exact .some (holding.last holds) holding.next.stands
      | succ depth =>
        rw [loop_next (callStep_close stands notOpen closes), argumentsAhead_close notOpen closes]
        exact ih holds solidTail holding.take
    by_cases parted : t.kind = .comma ∧ depth = 0
    · obtain ⟨comma, rfl⟩ := parted
      rw [loop_next (callStep_comma stands comma), argumentsAhead_comma comma]
      obtain ⟨out, scanned, finds⟩ :=
        ih (List.rel_append holds (.cons holding.holds .nil)) solidTail holding.next
      exact ⟨out, scanned, finds.comma⟩
    · have notStop := solid t List.mem_cons_self
      rw [loop_next (callStep_other stands notOpen notClose parted notStop),
        argumentsAhead_other notOpen notClose parted]
      exact ih holds solidTail holding.take

/-- The arguments of a call are found by index. -/
theorem callArguments_finds {tokens r : List Token} {t : Token} {stop : Span} {paren : Nat}
    (opens : t.kind = .openParen) (solid : ∀ u ∈ r, u.kind ≠ .stop)
    (stands : Token.Stream.StandsAt ⟨t :: r, stop⟩ tokens paren) :
    ∃ out, callArguments tokens paren = pure out ∧ (∀ p ∈ out, IsCall tokens p.1 p.2) ∧
      Finds tokens stop [] out ((RecordProperty.enclosed 0 r).map fun (inner, rest) =>
        (RecordProperty.arguments inner, rest)) := by
  have holding : Holding tokens [] paren paren ⟨t :: r, stop⟩ := ⟨stands.left, rfl⟩
  have step : callStep tokens (paren, ⟨0, paren + 1, []⟩) =
      pure (.inl (paren + 1, ⟨1, paren + 1, []⟩)) :=
    callStep_open stands (by simp [opens, RecordProperty.isOpener])
  obtain ⟨out, scanned, finds⟩ := callArguments_run (s := ⟨r, stop⟩) solid holding.next .nil
  have whole : callArguments tokens paren = pure out := (loop_next step).trans scanned
  obtain ⟨other, again, isCall⟩ := callArguments_inside tokens paren
  obtain rfl : other = out := Except.ok.inj (Option.some.inj (again.symm.trans whole))
  exact ⟨other, whole, isCall, argumentsAhead_nil r ▸ finds⟩

/-! ### Properties -/

/-- The span of the tokens in a range, or of the token behind an empty one. -/
def spanOf (tokens : List Token) (r : Range) : Checked Span := do
  let first ← item tokens r.1
  let last ← item tokens (max (r.2 - 1) r.1)
  return first.span.cover last.span

/-- The property that `obj->Set` with arguments in these ranges sets. -/
def setProperty (source : List Char) (tokens : List Token) :
    List Range → Checked (Option RecordProperty)
  | _ :: key :: value :: _ => do
    match RecordProperty.firstLiteral? (← range tokens key.1 key.2) with
    | none => return none
    | some name =>
      let text ← slice source (← spanOf tokens value)
      return some ⟨name, RecordProperty.typeOfValue (String.ofList text)⟩
  | _ => pure none

/-- The index of the first range with a string literal, counted from an index on. -/
def nameIndex (tokens : List Token) (i : Nat) : List Range → Checked (Option Nat)
  | [] => pure none
  | r :: rest => do
    if (RecordProperty.firstLiteral? (← range tokens r.1 r.2)).isSome then return some i
    else nameIndex tokens (i + 1) rest

def accessorProperty (tokens : List Token) (args : List Range) :
    Checked (Option RecordProperty) := do
  match ← nameIndex tokens 0 args with
  | none => return none
  | some i =>
    let r ← item args i
    match RecordProperty.firstLiteral? (← range tokens r.1 r.2) with
    | none => return none
    | some name =>
      match args[i + 2]? with
      | none => return some ⟨name, RecordProperty.typeOfGetter ""⟩
      | some r =>
        let getter ← range tokens r.1 r.2
        return some ⟨name, RecordProperty.typeOfGetter ((getter.findSome? (·.name?)).getD "")⟩

/-- What a call `obj->Set(` starts with. -/
def setTests : List (Token → Bool) :=
  [(·.isNamed "obj"), (·.kind = .other '-'), (·.kind = .other '>'), (·.isNamed "Set"),
    (·.kind = .openParen)]

/-- The call `obj->Set(` at an index. -/
def setCall (tokens : List Token) (i : Nat) : Checked (Option (List Range × Nat)) :=
  if i + setTests.length ≤ tokens.length then do
    let window ← range tokens i (i + setTests.length)
    if ← fits window 0 setTests then callArguments tokens (i + 4) else return none
  else pure none

def accessorCall (tokens : List Token) (i : Nat) : Checked (Option (List Range × Nat)) :=
  match tokens[i]?.bind (·.name?), tokens[i + 1]? with
  | some name, some paren =>
    if RecordProperty.accessorNames.contains name ∧ paren.kind = .openParen then
      callArguments tokens (i + 1)
    else pure none
  | _, _ => pure none

/-- Adds a property if none has its name yet. -/
def pushFirst (found : List RecordProperty) (p : Option RecordProperty) : List RecordProperty :=
  match p with
  | some p => if found.any (·.name == p.name) then found else found ++ [p]
  | none => found

def scrapeStep (source : List Char) (tokens : List Token) :
    Checked.Step (Nat × List RecordProperty) (List RecordProperty)
  | (i, found) =>
    if i < tokens.length then do
      match ← setCall tokens i with
      | some (args, next) => return .inl (next, pushFirst found (← setProperty source tokens args))
      | none =>
        match ← accessorCall tokens i with
        | some (args, next) => return .inl (next, pushFirst found (← accessorProperty tokens args))
        | none => return .inl (i + 1, found)
    else pure (.inr found)

def scrape (source : String) : Checked (List RecordProperty) := do
  let tokens ← tokens source.toList 1
  loop (scrapeStep source.toList tokens) (0, [])

/-! ### Finding calls -/

section

variable {tokens ts : List Token} {stop : Span} {i : Nat} (solid : ∀ t ∈ ts, t.kind ≠ .stop)
  (stands : Token.Stream.StandsAt ⟨ts, stop⟩ tokens i)
include solid stands

/-- The arguments of `obj->Set` are found by index as they are found by lists. -/
theorem setCall_finds : ∃ out, setCall tokens i = pure out ∧
    (∀ p ∈ out, IsCall tokens p.1 p.2) ∧ Finds tokens stop [] out
      (((RecordProperty.afterSet? ts).bind (RecordProperty.enclosed 0)).map fun (inner, rest) =>
        (RecordProperty.arguments inner, rest)) := by
  have fails : ∀ test ∈ setTests, test ⟨.stop, stop⟩ = false := by
    simp [setTests, Token.isNamed, Token.name?, Token.Kind.name?]
  have ahead : startsWith setTests (tokens.drop i) = startsWith setTests ts := by
    rw [stands.left, Token.Stream.all, startsWith_concat fails]
  have length := stands.length_eq
  simp only at length
  by_cases inside : i + setTests.length ≤ tokens.length
  · obtain ⟨window, cut, tested⟩ := exists_window inside
    rw [setCall, if_pos inside, cut, pure_bind, tested, pure_bind, ahead]
    rcases ts with _ | ⟨a, _ | ⟨b, _ | ⟨c, _ | ⟨d, _ | ⟨e, r⟩⟩⟩⟩⟩
    case cons.cons.cons.cons.cons =>
      have paren : Token.Stream.StandsAt ⟨e :: r, stop⟩ tokens (i + 4) :=
        ⟨by rw [← List.drop_drop, stands.left]; rfl⟩
      by_cases marks : startsWith setTests (a :: b :: c :: d :: e :: r) = true
      · have spelled : a.isNamed "obj" ∧ b.kind = .other '-' ∧ c.kind = .other '>' ∧
            d.isNamed "Set" ∧ e.kind = .openParen := by
          simpa [startsWith, setTests] using marks
        rw [if_pos marks, RecordProperty.afterSet?, if_pos spelled]
        exact callArguments_finds spelled.2.2.2.2
          (fun u member => solid u (by simp [member])) paren
      · have other : ¬ (a.isNamed "obj" ∧ b.kind = .other '-' ∧ c.kind = .other '>' ∧
            d.isNamed "Set" ∧ e.kind = .openParen) := by
          simpa [startsWith, setTests] using marks
        rw [if_neg marks, RecordProperty.afterSet?, if_neg other]
        exact ⟨none, rfl, by simp, .none⟩
    -- behind fewer than five tokens, the window would have to take in the mark of the end
    all_goals
      rw [if_neg (by simp [startsWith, setTests])]
      exact ⟨none, rfl, by simp, .none⟩
  · have few : ts.length < 5 := by
      have width : setTests.length = 5 := rfl
      omega
    rw [setCall, if_neg inside]
    rcases ts with _ | ⟨a, _ | ⟨b, _ | ⟨c, _ | ⟨d, _ | ⟨e, r⟩⟩⟩⟩⟩
    case cons.cons.cons.cons.cons =>
      simp at few
      omega
    all_goals exact ⟨none, rfl, by simp, .none⟩

/-- So are those of a macro. -/
theorem accessorCall_finds : ∃ out, accessorCall tokens i = pure out ∧
    (∀ p ∈ out, IsCall tokens p.1 p.2) ∧ Finds tokens stop [] out
      (((RecordProperty.afterAccessor? ts).bind (RecordProperty.enclosed 0)).map
        fun (inner, rest) => (RecordProperty.arguments inner, rest)) := by
  have here : tokens[i]? = (Token.Stream.all ⟨ts, stop⟩)[0]? := by
    rw [← stands.left, List.getElem?_drop]
    rfl
  have next : tokens[i + 1]? = (Token.Stream.all ⟨ts, stop⟩)[1]? := by
    rw [← stands.left, List.getElem?_drop]
  rw [accessorCall, here, next]
  match ts with
  | [] => exact ⟨none, rfl, by simp, .none⟩
  | [a] =>
    refine ⟨none, ?_, by simp, .none⟩
    cases named : a.name? with
    | none => simp [Token.Stream.all, named]
    | some name => simp [Token.Stream.all, named]
  | a :: b :: r =>
    have paren : Token.Stream.StandsAt ⟨b :: r, stop⟩ tokens (i + 1) :=
      ⟨by rw [← List.drop_drop, stands.left]; rfl⟩
    have found : ((Token.Stream.all ⟨a :: b :: r, stop⟩)[0]?.bind (·.name?)) = a.name? := rfl
    have second : (Token.Stream.all ⟨a :: b :: r, stop⟩)[1]? = some b := rfl
    rw [found, second, RecordProperty.afterAccessor?]
    cases named : a.name? with
    | none => exact ⟨none, rfl, by simp, .none⟩
    | some name =>
      by_cases accessor : RecordProperty.accessorNames.contains name ∧ b.kind = .openParen
      · rw [if_pos (by simpa using accessor)]
        simp only [if_pos accessor]
        exact callArguments_finds accessor.2 (fun u member => solid u (by simp [member])) paren
      · rw [if_neg (by simpa using accessor)]
        simp only [if_neg accessor]
        exact ⟨none, rfl, by simp, .none⟩

end

/-! ### Reading properties -/

section

variable {source : List Char} {tokens : List Token} {args : List Range}
  {parts : List (List Token)} (holds : List.Forall₂ (Holds tokens) args parts)
include holds

theorem holds_getElem? (i : Nat) : args[i]? = none ∧ parts[i]? = none ∨
    ∃ r part, args[i]? = some r ∧ parts[i]? = some part ∧ Holds tokens r part := by
  induction holds generalizing i with
  | nil => exact .inl ⟨rfl, rfl⟩
  | cons first _ ih =>
    cases i with
    | zero => exact .inr ⟨_, _, rfl, rfl, first⟩
    | succ i => exact ih i

/-- The first argument with a literal is found by index, and its place decides what the macro
defines. -/
theorem nameIndex_eq (k : Nat) : ∃ found : Option Nat,
    nameIndex tokens k args = pure (found.map (· + k)) ∧ (∀ i ∈ found, i < parts.length) ∧
      RecordProperty.ofAccessor? parts = found.bind fun i =>
        (parts[i]?.bind RecordProperty.firstLiteral?).map fun name =>
          ⟨name, RecordProperty.typeOfGetter
            ((parts[i + 2]?.bind (·.findSome? (·.name?))).getD "")⟩ := by
  induction holds generalizing k with
  | nil => exact ⟨none, rfl, by simp, rfl⟩
  | @cons r part args parts first _ ih =>
    have taken : range tokens r.1 r.2 = pure part := first
    rw [nameIndex, taken, pure_bind, RecordProperty.ofAccessor?]
    cases literal : RecordProperty.firstLiteral? part with
    | some name => exact ⟨some 0, by simp, by simp, by simp [literal]⟩
    | none =>
      obtain ⟨found, indexed, inside, same⟩ := ih (k + 1)
      refine ⟨found.map (· + 1), ?_, by simpa using inside, ?_⟩
      · simp [indexed, Function.comp_def, Nat.add_assoc, Nat.add_comm 1]
      · rw [same, Option.bind_map]
        exact congrArg (Option.bind found) (funext fun i => by simp)

theorem accessorProperty_eq :
    accessorProperty tokens args = pure (RecordProperty.ofAccessor? parts) := by
  obtain ⟨found, indexed, inside, same⟩ := nameIndex_eq holds 0
  simp only [Nat.add_zero, Option.map_id'] at indexed
  rw [accessorProperty, indexed, pure_bind, same]
  cases found with
  | none => rfl
  | some i =>
    have here : i < parts.length := inside i rfl
    rcases holds_getElem? holds i with ⟨-, none⟩ | ⟨r, part, arg, isPart, held⟩
    · rw [List.getElem?_eq_getElem here] at none
      cases none
    have taken : range tokens r.1 r.2 = pure part := held
    simp only [Checked.item_eq arg, pure_bind, taken, Option.bind_some, isPart]
    cases RecordProperty.firstLiteral? part with
    | none => rfl
    | some name =>
      rcases holds_getElem? holds (i + 2) with ⟨noArg, noPart⟩ | ⟨r', getter, arg', isGetter, held'⟩
      · simp only [noArg, noPart]
        rfl
      · have taken' : range tokens r'.1 r'.2 = pure getter := held'
        simp only [arg', isGetter, taken', pure_bind]
        rfl

end

/-- A comma is all of its own text. -/
theorem text_comma {source : List Char} {line : Nat} {t : Token}
    (member : t ∈ (Token.scan source line).tokens) (comma : t.kind = .comma) :
    (t.span.cover t.span).text source = "," := by
  obtain ⟨whole, stop, inside⟩ := Token.cut_at_mark member (.inr (.inr rfl)) comma
  have cover : t.span.cover t.span = t.span := by
    simp only [Span.cover, Nat.min_self, Nat.max_self]
  have starts : source.drop t.span.start = ',' :: source.drop t.span.stop := by
    conv => lhs; rw [whole]
    rw [List.drop_append_of_le_length (by simp; omega), List.drop_take_self, List.nil_append]
  rw [cover, Span.text, Span.slice_of_le (by omega), stop, Nat.add_sub_cancel_left, starts]
  rfl

/-- The span of an empty range is that of the comma behind it, from which both ends are taken. -/
theorem spanOf_comma {source : List Char} {line : Nat} {r : Range} {t : Token}
    (empty : r.1 = r.2) (here : (Token.scan source line).all[r.2]? = some t)
    (comma : t.kind = .comma) :
    spanOf (Token.scan source line).all r = pure (t.span.cover t.span) ∧
      (t.span.cover t.span).text source = "," := by
  have first : item (Token.scan source line).all r.1 = pure t := Checked.item_eq (empty ▸ here)
  have last : max (r.2 - 1) r.1 = r.1 := by omega
  have member : t ∈ (Token.scan source line).tokens := by
    have all := List.mem_of_getElem? here
    rw [Token.Stream.all, List.mem_append, List.mem_singleton] at all
    rcases all with isToken | rfl
    · exact isToken
    · cases comma
  refine ⟨?_, text_comma member comma⟩
  rw [spanOf, first, pure_bind, last, first, pure_bind]

/-- The span of other ranges goes from their first token to their last one. -/
theorem spanOf_filled {tokens : List Token} {r : Range} (filled : r.1 < r.2)
    (inside : r.2 < tokens.length) :
    ∃ first last, spanOf tokens r = pure (first.span.cover last.span) ∧
      ((tokens.drop r.1).take (r.2 - r.1)).head? = some first ∧
      ((tokens.drop r.1).take (r.2 - r.1)).getLast? = some last := by
  have first : item tokens r.1 = pure tokens[r.1] :=
    Checked.item_eq (List.getElem?_eq_getElem (by omega))
  have last : item tokens (r.2 - 1) = pure tokens[r.2 - 1] :=
    Checked.item_eq (List.getElem?_eq_getElem (by omega))
  have place : max (r.2 - 1) r.1 = r.2 - 1 := by omega
  have behind : r.1 + (r.2 - r.1 - 1) = r.2 - 1 := by omega
  refine ⟨_, _, by rw [spanOf, first, pure_bind, place, last, pure_bind], ?_, ?_⟩
  · rw [List.head?_take, if_neg (by omega), List.head?_drop, List.getElem?_eq_getElem]
  · rw [List.getLast?_take, if_neg (by omega), List.getElem?_drop, behind,
      List.getElem?_eq_getElem, Option.some_or]

/-- The span of an argument is found by index; where the argument is empty, the comma behind it has
the same type as nothing. -/
theorem spanOf_eq {source : List Char} {line : Nat} {r : Range} {part : List Token}
    (held : Holds (Token.scan source line).all r part)
    (isRange : IsRange (Token.scan source line).all r) :
    ∃ span, spanOf (Token.scan source line).all r = pure span ∧
      RecordProperty.typeOfValue (span.text source) =
        RecordProperty.typeOfValue (RecordProperty.sourceText source part) := by
  obtain rfl : ((Token.scan source line).all.drop r.1).take (r.2 - r.1) = part := by
    have taken : range (Token.scan source line).all r.1 r.2 = pure part := held
    rw [Checked.range_eq isRange.ordered (Nat.le_of_lt isRange.inside)] at taken
    exact Except.ok.inj (Option.some.inj taken)
  rcases Nat.eq_or_lt_of_le isRange.ordered with empty | filled
  · obtain ⟨t, here, comma⟩ := isRange.comma empty
    obtain ⟨found, text⟩ := spanOf_comma empty here comma
    have unknown : RecordProperty.typeOfValue "," = RecordProperty.typeOfValue "" := by decide
    refine ⟨_, found, ?_⟩
    rw [text, empty, Nat.sub_self, List.take_zero]
    exact unknown
  · obtain ⟨first, last, found, head, final⟩ := spanOf_filled filled isRange.inside
    refine ⟨_, found, ?_⟩
    rw [RecordProperty.sourceText, head, final]

/-- By index or by lists, `obj->Set` sets the same property. -/
theorem setProperty_eq {source : List Char} {line : Nat} {args : List Range}
    {parts : List (List Token)}
    (holds : List.Forall₂ (Holds (Token.scan source line).all) args parts)
    (ranges : ∀ r ∈ args, IsRange (Token.scan source line).all r) :
    setProperty source (Token.scan source line).all args =
      pure (RecordProperty.ofSet? source parts) := by
  match args, parts, holds with
  | [], [], .nil => rfl
  | [_], [_], .cons _ .nil => rfl
  | [_, _], [_, _], .cons _ (.cons _ .nil) => rfl
  | _ :: key :: value :: _, _ :: keyPart :: valuePart :: _, .cons _ (.cons key' (.cons value' _)) =>
    have taken : range (Token.scan source line).all key.1 key.2 = pure keyPart := key'
    obtain ⟨span, spans, same⟩ := spanOf_eq value' (ranges value (by simp))
    rw [setProperty, taken, pure_bind, RecordProperty.ofSet?]
    cases RecordProperty.firstLiteral? keyPart with
    | none => rfl
    | some name =>
      simp only [spans, pure_bind, slice_eq, Option.map_some, ← same]
      rfl

/-! ### Scraping -/

/-- One property is added as all are. -/
theorem pushFirst_eq (found : List RecordProperty) (p : Option RecordProperty)
    (later : List RecordProperty) :
    found ++ RecordProperty.keepFirst (found.map (·.name)).reverse (p.toList ++ later) =
      pushFirst found p ++
        RecordProperty.keepFirst ((pushFirst found p).map (·.name)).reverse later := by
  cases p with
  | none => rfl
  | some p =>
    have known : (found.map (·.name)).reverse.contains p.name = found.any (·.name == p.name) := by
      rw [List.contains_eq_any_beq, List.any_reverse, List.any_map]
      refine congrArg _ (funext fun q => ?_)
      simp only [Function.comp_apply, Bool.beq_comm]
    rw [Option.toList_some, List.singleton_append, RecordProperty.keepFirst, known, pushFirst]
    split
    · rfl
    · simp

section

variable {source : List Char} {line : Nat} {ts : List Token} {stop : Span} {i : Nat}
  (stands : Token.Stream.StandsAt ⟨ts, stop⟩ (Token.scan source line).all i)
  (found : List RecordProperty)
include stands

theorem solid_of_standsAt : ∀ t ∈ ts, t.kind ≠ .stop := fun _ member =>
  (Token.located_scan (Token.Stream.mem_of_standsAt stands member)).kind_ne_stop

/-- Where a call starts, its property is added, and the index moves behind the call. -/
theorem scrapeStep_call {p : Option RecordProperty} {rest : List Token}
    (called : RecordProperty.call? source ts = some (p, rest)) :
    ∃ next, scrapeStep source (Token.scan source line).all (i, found) =
        pure (.inl (next, pushFirst found p)) ∧
      Token.Stream.StandsAt ⟨rest, stop⟩ (Token.scan source line).all next := by
  have length := stands.length_eq
  have solid := solid_of_standsAt stands
  obtain ⟨sets, setScanned, setRanges, setFinds⟩ := setCall_finds solid stands
  rw [scrapeStep, if_pos (by omega), setScanned, pure_bind]
  rw [RecordProperty.call?] at called
  cases set : (RecordProperty.afterSet? ts).bind (RecordProperty.enclosed 0) with
  | some whole =>
    obtain ⟨inner, rest'⟩ := whole
    rw [set] at called setFinds
    obtain ⟨rfl, rfl⟩ := Prod.mk.inj (Option.some.inj called)
    obtain ⟨args, next, rfl, holds, behind⟩ := setFinds.exists_args
    have property := setProperty_eq holds (setRanges _ rfl).ranges
    simp only [property, pure_bind]
    exact ⟨next, rfl, behind⟩
  | none =>
    obtain ⟨accesses, accessScanned, accessRanges, accessFinds⟩ := accessorCall_finds solid stands
    rw [set] at called setFinds
    obtain rfl := setFinds.eq_none
    obtain ⟨⟨inner, rest'⟩, access, same⟩ := Option.map_eq_some_iff.mp called
    obtain ⟨rfl, rfl⟩ := Prod.mk.inj same
    rw [access] at accessFinds
    obtain ⟨args, next, rfl, holds, behind⟩ := accessFinds.exists_args
    have property := accessorProperty_eq holds
    simp only [accessScanned, pure_bind, property]
    exact ⟨next, rfl, behind⟩

/-- Elsewhere the index passes one token. -/
theorem scrapeStep_pass (notCalled : RecordProperty.call? source ts = none) :
    scrapeStep source (Token.scan source line).all (i, found) = pure (.inl (i + 1, found)) := by
  have length := stands.length_eq
  have solid := solid_of_standsAt stands
  obtain ⟨sets, setScanned, -, setFinds⟩ := setCall_finds solid stands
  obtain ⟨accesses, accessScanned, -, accessFinds⟩ := accessorCall_finds solid stands
  rw [RecordProperty.call?] at notCalled
  cases set : (RecordProperty.afterSet? ts).bind (RecordProperty.enclosed 0) with
  | some whole =>
    rw [set] at notCalled
    cases notCalled
  | none =>
    rw [set] at notCalled setFinds
    rw [Option.map_eq_none_iff.mp notCalled] at accessFinds
    obtain rfl := setFinds.eq_none
    obtain rfl := accessFinds.eq_none
    rw [scrapeStep, if_pos (by omega), setScanned, pure_bind, accessScanned]
    rfl

end

/-- Behind each call or token, the index goes on, and all tokens come to an end. -/
theorem scrape_run {source : List Char} {line : Nat} {ts : List Token} {stop : Span} {i : Nat}
    (stands : Token.Stream.StandsAt ⟨ts, stop⟩ (Token.scan source line).all i)
    (found : List RecordProperty) :
    loop (scrapeStep source (Token.scan source line).all) (i, found) =
      pure (found ++ RecordProperty.keepFirst (found.map (·.name)).reverse
        (RecordProperty.ofTokens source ts)) := by
  fun_induction RecordProperty.ofTokens source ts generalizing i found with
  | case1 ts p rest called ih =>
    obtain ⟨next, step, behind⟩ := scrapeStep_call stands found called
    rw [loop_next step, ih behind, pushFirst_eq]
  | case2 notCalled =>
    have length := stands.length_eq
    have ended : scrapeStep source (Token.scan source line).all (i + 1, found) =
        pure (.inr found) := if_neg (by simp only [List.length_nil] at length; omega)
    rw [loop_next (scrapeStep_pass stands found notCalled), loop_done ended]
    simp [RecordProperty.keepFirst]
  | case3 t r notCalled ih =>
    have behind : Token.Stream.StandsAt ⟨r, stop⟩ (Token.scan source line).all (i + 1) :=
      ⟨by rw [← List.drop_drop, stands.left]; rfl⟩
    rw [loop_next (scrapeStep_pass stands found notCalled)]
    exact ih behind found

theorem scrape_eq (source : String) :
    scrape source = pure (RecordProperty.ofSource source) := by
  rw [scrape, tokens_eq, pure_bind]
  exact scrape_run (Token.Stream.StandsAt.first _) []

end ByPosition

end ScriptGlue
