import ScriptGlue.Proofs.Access.Scanning
import ScriptGlue.Proofs.Access.Walking
import ScriptGlue.Proofs.Access.Windows
import ScriptGlue.Proofs.Declaration.Outline

/-!
# Reading declarations by position

A declaration is read by an index over its tokens. The indices of its return type and of the tokens
of an argument lie inside because of the tests before them, and parentheses are closed only where
some are open.
-/
namespace ScriptGlue

open Checked (item range minus)

namespace ByPosition

/-! ### Arguments -/

def text (source : List Char) (first last : Token) : Checked String := do
  let piece ← slice source ⟨first.span.start, last.span.stop, first.span.line⟩
  return String.ofList (Text.trimChars piece)

/-- What marks the name of a pointer to a function. -/
def markTests : List (Token → Bool) := [(·.kind = .openParen), (·.kind = .star)]

def nameBehind? (chunk : List Token) (mark : Nat) : Option String :=
  match chunk[mark + 2]?, chunk[mark + 3]? with
  | some t, some close => if close.kind = .closeParen then t.name? else none
  | _, _ => none

/-- The argument of identifiers and stars, of which the first and the last one are given. -/
def runArgument (source : List Char) (index : Nat) (chunk : List Token) (first last : Token) :
    Checked Argument := do
  let unnamed (type : String) : Argument := .fixed { name := s!"value{index}", type := type }
  let stars := chunk.countP (·.kind = .star)
  let words ← minus chunk.length stars
  if words = 1 ∧ stars ≤ 1 ∧ first.name?.isSome then return unnamed (← text source first last)
  else
    match last.name? with
    | some name =>
      if Declaration.typeWords.contains name then return unnamed (← text source first last)
      else
        let lead ← range chunk 0 (← minus chunk.length 1)
        if Declaration.onlyQualifiers lead then return unnamed (← text source first last)
        else
          let typeEnd ← item chunk (← minus chunk.length 2)
          return .fixed { name := name, type := ← text source first typeEnd }
    | none => return unnamed (← text source first last)

def argument (source : List Char) (index : Nat) (chunk : List Token) : Checked Argument :=
  let unnamed (type : String) : Argument := .fixed { name := s!"value{index}", type := type }
  match chunk.head?, chunk.getLast? with
  | some first, some last =>
    if chunk.length = 1 ∧ first.kind = .ellipsis then pure .variadic
    else do
      match ← firstMatch markTests chunk with
      | some star =>
        let name := (nameBehind? chunk star).getD s!"callback{index}"
        return .fixed { name := name, type := "void*" }
      | none =>
        match Declaration.arrayParts? chunk with
        | some (name, size, lead) =>
          let type ← text source first (lead.getLastD first)
          return .fixed { name := name, type := s!"{type}*", size := some size }
        | none =>
          if !Declaration.isTypeRun chunk then return unnamed "void*"
          else runArgument source index chunk first last
  | _, _ => pure (unnamed "void*")

/-- Whether a chunk is the lone word `void`. -/
def isLoneVoid (chunk : List Token) : Checked Bool :=
  if chunk.length = 1 then do return (← item chunk 0).isNamed "void" else pure false

def argumentsFrom (source : List Char) (index : Nat) :
    List (List Token) → Checked (List Argument)
  | [] => pure []
  | chunk :: r => do
    if ← isLoneVoid chunk then argumentsFrom source index r
    else
      let a ← argument source index chunk
      return a :: (← argumentsFrom source (index + 1) r)

theorem text_eq (source : List Char) (first last : Token) :
    text source first last = pure (Declaration.textBetween source first last) := by
  rw [text, slice_eq, pure_bind, Declaration.textBetween, Text.trim, Span.text,
    String.toList_ofList]

theorem afterPointerMark_eq (ts : List Token) : Declaration.afterPointerMark ts =
    (matchIndex markTests ts).bind fun i => some ((ts.drop i).drop 2) := by
  refine eq_matchIndex _ (fun ts => some (ts.drop 2)) rfl (fun t r => ?_) ts
  cases r with
  | nil => simp [Declaration.afterPointerMark, startsWith, markTests]
  | cons u r => simp [Declaration.afterPointerMark, startsWith, markTests]

theorem nameBehind?_eq (ts : List Token) (i : Nat) :
    nameBehind? ts i = Declaration.pointerName? (ts.drop (i + 2)) := by
  have first : ts[i + 2]? = (ts.drop (i + 2))[0]? := by simp
  have second : ts[i + 3]? = (ts.drop (i + 2))[1]? := by simp
  rw [nameBehind?, first, second]
  match ts.drop (i + 2) with
  | [] | [_] => rfl
  | t :: close :: r => rfl

/-- A run that ends in a name and is no lone word has a token before the name. -/
theorem typeEnd_eq {first last : Token} {r : List Token} {name : String}
    (final : (first :: r).getLast? = some last) (named : last.name? = some name)
    (several : ¬ ((first :: r).length - (first :: r).countP (·.kind = .star) = 1 ∧
      (first :: r).countP (·.kind = .star) ≤ 1 ∧ first.name?.isSome = true)) :
    minus (first :: r).length 2 = pure ((first :: r).length - 2) ∧
      item (first :: r) ((first :: r).length - 2) =
        pure ((first :: r).dropLast.getLastD first) := by
  obtain ⟨front, whole⟩ := List.getLast?_eq_some_iff.mp final
  rcases List.eq_nil_or_concat front with rfl | ⟨lead, typeEnd, rfl⟩
  · -- a name alone is one word without a star, which has been taken for a bare type before
    obtain ⟨rfl, rfl⟩ := List.cons.inj whole
    exact absurd (by simp [named, Token.name?_eq_some_iff.mp named]) several
  · rw [List.concat_eq_append] at whole
    rw [whole]
    refine ⟨Checked.minus_eq (by simp), ?_⟩
    rw [Checked.item_eq (a := typeEnd) (by simp)]
    simp

theorem argument_eq (source : List Char) (index : Nat) (chunk : List Token) :
    argument source index chunk = pure (Declaration.argument source index chunk) := by
  cases chunk with
  | nil => rfl
  | cons first r =>
    obtain ⟨last, final⟩ : ∃ last, (first :: r).getLast? = some last :=
      ⟨_, List.getLast?_eq_some_getLast (List.cons_ne_nil first r)⟩
    have marked : firstMatch markTests (first :: r) = pure (matchIndex markTests (first :: r)) :=
      firstMatch_eq (by simp [markTests]) _
    rw [argument, Declaration.argument, final]
    simp only [List.head?_cons, marked, pure_bind, afterPointerMark_eq]
    split
    · rfl
    cases matchIndex markTests (first :: r) with
    | some star => simp only [Option.bind_some, List.drop_drop, nameBehind?_eq]
    | none =>
      simp only [Option.bind_none]
      cases Declaration.arrayParts? (first :: r) with
      | some parts => simp only [text_eq, pure_bind]
      | none =>
        simp only
        split
        · rfl
        have stars : minus (first :: r).length ((first :: r).countP (·.kind = .star)) =
            pure ((first :: r).length - (first :: r).countP (·.kind = .star)) :=
          Checked.minus_eq List.countP_le_length
        simp only [runArgument, stars, pure_bind]
        split
        · rw [text_eq, pure_bind]
        rename_i several
        cases named : last.name? with
        | none => simp only [text_eq, pure_bind]
        | some name =>
          obtain ⟨before, typeEnd⟩ := typeEnd_eq final named several
          have one : minus (first :: r).length 1 = pure ((first :: r).length - 1) :=
            Checked.minus_eq (Nat.succ_pos _)
          have lead : range (first :: r) 0 ((first :: r).length - 1) =
              pure (first :: r).dropLast := by
            rw [Checked.range_eq (Nat.zero_le _) (Nat.sub_le _ _), List.dropLast_eq_take]
            rfl
          simp only [one, lead, before, typeEnd, text_eq, pure_bind]
          by_cases word : Declaration.typeWords.contains name = true
          · simp only [word, if_true, Bool.not_true, Bool.false_and, Bool.false_eq_true, if_false]
          · rw [if_neg word, Bool.eq_false_iff.mpr word]
            cases Declaration.onlyQualifiers (first :: r).dropLast <;> rfl

theorem isLoneVoid_eq (chunk : List Token) :
    isLoneVoid chunk = pure (Declaration.isLoneVoid chunk) := by
  match chunk with
  | [] => rfl
  | [t] => rfl
  | t :: u :: r => exact if_neg (by simp)

/-- Chunks are made arguments one by one, and only those count that are made. -/
theorem argumentsFrom_eq (source : List Char) (chunks : List (List Token)) (index : Nat) :
    argumentsFrom source index chunks =
      pure ((chunks.filter (!Declaration.isLoneVoid ·)).mapIdx fun i =>
        Declaration.argument source (index + i)) := by
  induction chunks generalizing index with
  | nil => rfl
  | cons chunk r ih =>
    rw [argumentsFrom, isLoneVoid_eq, pure_bind]
    by_cases lone : Declaration.isLoneVoid chunk = true
    · rw [if_pos lone, ih, List.filter_cons_of_neg (by simp [lone])]
    · rw [if_neg lone, argument_eq, pure_bind, ih, pure_bind,
        List.filter_cons_of_pos (by simp [lone]), List.mapIdx_cons]
      simp only [Nat.add_zero, Nat.add_assoc, Nat.add_comm 1]

/-! ### Chunks -/

/-- What has been split so far: how many parentheses are open, the current chunk, and the chunks
before it. -/
structure Split where
  depth : Nat
  chunk : List Token
  done : List (List Token)

/-- All chunks; a single empty one is none. -/
def Split.chunks (s : Split) : List (List Token) :=
  if s.chunk.isEmpty && s.done.isEmpty then s.done else s.done ++ [s.chunk]

def splitStep (tokens : List Token) (paren : Token) (s : Split) :
    Walker (Split ⊕ List (List Token)) := do
  let t ← Walker.advance tokens
  let into : Split := { s with chunk := s.chunk ++ [t] }
  match t.kind, s.depth with
  | .stop, _ =>
    Walker.fail (.malformedDeclaration "unbalanced parentheses in argument list" paren.span)
  | .openParen, depth => return .inl { into with depth := depth + 1 }
  | .closeParen, 0 => return .inr s.chunks
  | .closeParen, depth =>
    let fewer ← Walker.check (minus depth 1)
    return .inl { into with depth := fewer }
  | .comma, 0 => return .inl { s with chunk := [], done := s.done ++ [s.chunk] }
  | _, _ => return .inl into

/-- Cuts the arguments behind a parenthesis at their commas, up to the one that closes it. -/
def splitArguments (tokens : List Token) (paren : Token) : Walker (List (List Token)) :=
  Walker.loop (splitStep tokens paren) ⟨0, [], []⟩

/-- The chunks once those of the tokens ahead follow what has been split. -/
def Split.append (s : Split) (chunks : List (List Token)) : List (List Token) :=
  match chunks with
  | [] => s.done ++ [s.chunk]
  | chunk :: r => s.done ++ (s.chunk ++ chunk) :: r

/-- One empty chunk is none. -/
def dropEmpty (chunks : List (List Token)) : List (List Token) :=
  if chunks = [[]] then [] else chunks

theorem intoFirst_eq (t : Token) (chunks : List (List Token)) :
    Declaration.intoFirst t chunks = (t :: chunks.headD []) :: chunks.tail := by
  cases chunks <;> rfl

theorem splitCommas_ne_nil (depth : Nat) (ts : List Token) :
    Declaration.splitCommas depth ts ≠ [] := by
  cases ts with
  | nil => simp [Declaration.splitCommas]
  | cons t r =>
    rw [Declaration.splitCommas.eq_def]
    dsimp only
    split <;> simp [intoFirst_eq]

theorem Split.append_intoFirst (s : Split) (t : Token) (chunks : List (List Token)) (depth : Nat) :
    s.append (Declaration.intoFirst t chunks) =
      Split.append { s with chunk := s.chunk ++ [t], depth := depth } chunks := by
  cases chunks <;> simp [Declaration.intoFirst, Split.append]

theorem Split.append_comma (s : Split) {chunks : List (List Token)} (filled : chunks ≠ []) :
    s.append ([] :: chunks) =
      Split.append { s with chunk := [], done := s.done ++ [s.chunk] } chunks := by
  cases chunks with
  | nil => exact absurd rfl filled
  | cons chunk r => simp [Split.append]

theorem splitCommas_cons_ne (depth : Nat) (t : Token) (r : List Token) :
    Declaration.splitCommas depth (t :: r) ≠ [[]] := by
  rw [Declaration.splitCommas.eq_def]
  dsimp only
  split <;> simp [intoFirst_eq, splitCommas_ne_nil]

theorem chunks_eq (ts : List Token) :
    Declaration.chunks ts = dropEmpty (Declaration.splitCommas 0 ts) := by
  cases ts with
  | nil => rfl
  | cons t r =>
    rw [dropEmpty, if_neg (splitCommas_cons_ne 0 t r)]
    rfl

/-- What the tokens ahead come to once some are split. -/
def Split.finish (paren : Token) (s : Split) (ahead : List Token) :
    Except Fault (List (List Token)) :=
  match Declaration.enclosed s.depth ahead with
  | some inner => .ok (dropEmpty (s.append (Declaration.splitCommas s.depth inner)))
  | none => .error (.malformedDeclaration "unbalanced parentheses in argument list" paren.span)

namespace Split

variable {paren t : Token} {r : List Token} {s : Split}

/-- A step that both the enclosed tokens and their chunks take alike leaves the outcome as it is. -/
theorem finish_cons {into : Split}
    (encloses : Declaration.enclosed s.depth (t :: r) =
      (Declaration.enclosed into.depth r).map (t :: ·))
    (cuts : ∀ inner, s.append (Declaration.splitCommas s.depth (t :: inner)) =
      into.append (Declaration.splitCommas into.depth inner)) :
    s.finish paren (t :: r) = into.finish paren r := by
  rw [finish, finish, encloses]
  cases Declaration.enclosed into.depth r with
  | none => rfl
  | some inner => simp only [Option.map_some, cuts]

theorem finish_open (opens : t.kind = .openParen) : s.finish paren (t :: r) =
    finish paren { s with chunk := s.chunk ++ [t], depth := s.depth + 1 } r := by
  refine finish_cons ?_ fun inner => ?_
  · simp only [Declaration.enclosed, opens]
  · simp only [Declaration.splitCommas, opens, append_intoFirst s t _ (s.depth + 1)]

theorem finish_close {depth : Nat} (closes : t.kind = .closeParen) (inside : s.depth = depth + 1) :
    s.finish paren (t :: r) =
      finish paren { s with chunk := s.chunk ++ [t], depth := depth } r := by
  refine finish_cons ?_ fun inner => ?_
  · simp only [inside, Declaration.enclosed, closes]
  · simp only [inside, Declaration.splitCommas, closes, append_intoFirst s t _ depth,
      Nat.add_sub_cancel]

theorem finish_end (closes : t.kind = .closeParen) (outside : s.depth = 0) :
    s.finish paren (t :: r) = .ok s.chunks := by
  obtain ⟨depth, chunk, done⟩ := s
  cases outside
  cases done <;> cases chunk <;>
    simp [finish, Declaration.enclosed, closes, Declaration.splitCommas, append, dropEmpty, chunks]

theorem finish_comma (parts : t.kind = .comma) (outside : s.depth = 0) :
    s.finish paren (t :: r) =
      finish paren { s with chunk := [], done := s.done ++ [s.chunk] } r := by
  refine finish_cons ?_ fun inner => ?_
  · simp only [outside, Declaration.enclosed, parts]
  · simp only [outside, Declaration.splitCommas, parts,
      append_comma s (splitCommas_ne_nil 0 inner)]

theorem finish_other (notOpen : t.kind ≠ .openParen) (notClose : t.kind ≠ .closeParen)
    (inside : t.kind = .comma → s.depth ≠ 0) :
    s.finish paren (t :: r) = finish paren { s with chunk := s.chunk ++ [t] } r := by
  refine finish_cons ?_ fun inner => ?_
  · rw [Declaration.enclosed.eq_def]
    dsimp only
    split
    · contradiction
    · contradiction
    · contradiction
    · rfl
  · rw [Declaration.splitCommas.eq_def]
    dsimp only
    split
    · contradiction
    · contradiction
    · exact absurd ‹s.depth = 0› (inside ‹_›)
    · exact append_intoFirst s t _ s.depth

end Split

section

variable {tokens : List Token} {paren t : Token} {pos next : Nat} {s : Split}
  (taken : Walker.advance tokens pos = pure (.ok (t, next)))
include taken

theorem splitStep_open (opens : t.kind = .openParen) : splitStep tokens paren s pos =
    pure (.ok (.inl { s with chunk := s.chunk ++ [t], depth := s.depth + 1 }, next)) := by
  rw [splitStep, Walker.bind_ok taken]
  simp only [opens]
  rfl

theorem splitStep_close {depth : Nat} (closes : t.kind = .closeParen)
    (inside : s.depth = depth + 1) : splitStep tokens paren s pos =
      pure (.ok (.inl { s with chunk := s.chunk ++ [t], depth := depth }, next)) := by
  have fewer : minus (depth + 1) 1 = pure depth := Checked.minus_eq (Nat.le_add_left 1 depth)
  rw [splitStep, Walker.bind_ok taken]
  simp only [closes, inside]
  rw [Walker.bind_ok (Walker.check_eq fewer)]
  rfl

theorem splitStep_end (closes : t.kind = .closeParen) (outside : s.depth = 0) :
    splitStep tokens paren s pos = pure (.ok (.inr s.chunks, next)) := by
  rw [splitStep, Walker.bind_ok taken]
  simp only [closes, outside]
  rfl

theorem splitStep_comma (parts : t.kind = .comma) (outside : s.depth = 0) :
    splitStep tokens paren s pos =
      pure (.ok (.inl { s with chunk := [], done := s.done ++ [s.chunk] }, next)) := by
  rw [splitStep, Walker.bind_ok taken]
  simp only [parts, outside]
  rfl

/-- Any other token goes to the chunk at hand. -/
theorem splitStep_other (solid : t.kind ≠ .stop) (notOpen : t.kind ≠ .openParen)
    (notClose : t.kind ≠ .closeParen) (inside : t.kind = .comma → s.depth ≠ 0) :
    splitStep tokens paren s pos =
      pure (.ok (.inl { s with chunk := s.chunk ++ [t] }, next)) := by
  rw [splitStep, Walker.bind_ok taken]
  dsimp only
  cases kind : t.kind with
  | stop => exact absurd kind solid
  | openParen => exact absurd kind notOpen
  | closeParen => exact absurd kind notClose
  | comma =>
    cases outside : s.depth with
    | zero => exact absurd outside (inside kind)
    | succ depth => rfl
  | _ => rfl

end

/-- The arguments that a parenthesis encloses are split at its commas: the mark of the end stops an
index, and depth is taken away only where a parenthesis is open. -/
theorem split_yields {tokens : List Token} {stream : Token.Stream}
    (solid : ∀ t ∈ stream.tokens, t.kind ≠ .stop) {pos : Nat} (stands : stream.StandsAt tokens pos)
    (paren : Token) (s : Split) :
    Yields (Walker.loop (splitStep tokens paren) s pos) (s.finish paren stream.tokens) := by
  obtain ⟨ts, stop⟩ := stream
  -- by induction on the tokens ahead: each step of the loop is one of what is to be finished
  induction ts generalizing pos s with
  | nil =>
    obtain ⟨next, -, taken⟩ := stands.advance_eq
    refine ⟨_, Walker.loop_error ?_, rfl⟩
    rw [splitStep, Walker.bind_ok taken]
    rfl
  | cons t r ih =>
    obtain ⟨next, behind, taken⟩ := stands.advance_eq
    change Walker.advance tokens pos = pure (.ok (t, next)) at taken
    have later := fun s => ih s (fun u member => solid u (List.mem_cons_of_mem _ member)) behind
    by_cases opens : t.kind = .openParen
    · rw [Split.finish_open opens, Walker.loop_next (splitStep_open taken opens)]
      exact later _
    by_cases closes : t.kind = .closeParen
    · cases inside : s.depth with
      | zero =>
        rw [Split.finish_end closes inside, Walker.loop_done (splitStep_end taken closes inside)]
        exact ⟨_, rfl, rfl⟩
      | succ depth =>
        rw [Split.finish_close closes inside,
          Walker.loop_next (splitStep_close taken closes inside)]
        exact later _
    by_cases parts : t.kind = .comma ∧ s.depth = 0
    · rw [Split.finish_comma parts.1 parts.2,
        Walker.loop_next (splitStep_comma taken parts.1 parts.2)]
      exact later _
    · have inside : t.kind = .comma → s.depth ≠ 0 := fun comma outside => parts ⟨comma, outside⟩
      have solid := solid t List.mem_cons_self
      rw [Split.finish_other opens closes inside,
        Walker.loop_next (splitStep_other taken solid opens closes inside)]
      exact later _

/-! ### Declarations -/

/-- Takes a token if it may be part of a type. -/
def typeStep (tokens : List Token) (_ : Unit) : Walker (Unit ⊕ Unit) := do
  let t ← Walker.current tokens
  if t.kind.isTypePart then
    let _ ← Walker.advance tokens
    return .inl ()
  else return .inr ()

/-- Reads a declaration; whatever follows its arguments is ignored. -/
def reader (source : List Char) (text : String) (line : Nat) (tokens : List Token) :
    Walker Declaration := do
  let start ← Walker.position
  Walker.loop (typeStep tokens) ()
  let stop ← Walker.position
  if stop = start then
    let t ← Walker.current tokens
    Walker.fail (.malformedDeclaration "missing return type" t.span)
  else
    let first ← Walker.check (item tokens start)
    let last ← Walker.check (do item tokens (← minus stop 1))
    let returnType ← Walker.check (ByPosition.text source first last)
    let _ ← Walker.expect tokens .openParen
    let _ ← Walker.expect tokens .star
    let name ← Walker.expectName tokens
    let _ ← Walker.expect tokens .closeParen
    let paren ← Walker.expect tokens .openParen
    let chunks ← splitArguments tokens paren
    let args ← Walker.check (argumentsFrom source 0 chunks)
    return { name := name, returnType := returnType, args := args, text := text, line := line }

/-- What marks the name of the first pointer. -/
def pointerTests : List (Token → Bool) :=
  [(·.kind = .openParen), (·.kind = .star), (·.name?.isSome), (·.kind = .closeParen)]

/-- The name in the first `( * NAME )`. -/
def firstPointerName? (tokens : List Token) : Checked (Option String) := do
  match ← firstMatch pointerTests tokens with
  | some i => return (← item tokens (i + 2)).name?
  | none => return none

def declaration (text : String) (line : Nat) : Checked Declaration := do
  let source := (Text.collapse text).toList
  let tokens ← tokens source line
  match ← reader source text line tokens 0 with
  | .ok (d, _) => return d
  | .error _ =>
    let name ← firstPointerName? tokens
    return Declaration.unparsable (name.getD s!"unknown{line}") text line

/-- The index passes the return type and comes to stand behind it. -/
theorem typeRun_eq {tokens : List Token} {s : Token.Stream} {pos : Nat}
    (stands : s.StandsAt tokens pos) :
    ∃ next, next = pos + (s.tokens.takeWhile (·.kind.isTypePart)).length ∧
      Token.Stream.StandsAt { s with tokens := s.tokens.dropWhile (·.kind.isTypePart) } tokens
        next ∧
      Walker.loop (typeStep tokens) () pos = pure (.ok ((), next)) := by
  obtain ⟨ts, stop⟩ := s
  induction ts generalizing pos with
  | nil =>
    refine ⟨pos, rfl, stands, Walker.loop_done ?_⟩
    rw [typeStep, Walker.bind_ok stands.current_eq]
    rfl
  | cons t r ih =>
    by_cases part : t.kind.isTypePart = true
    · obtain ⟨next, behind, taken⟩ := stands.advance_eq
      obtain ⟨last, place, there, passed⟩ := ih behind
      have here := stands.length_eq
      have moved := behind.length_eq
      simp only [Token.Stream.tail, List.tail_cons, List.length_cons] at here moved
      change last = next + (r.takeWhile (·.kind.isTypePart)).length at place
      refine ⟨last, ?_, ?_, (Walker.loop_next ?_).trans passed⟩
      · rw [List.takeWhile_cons_of_pos (by simpa using part), List.length_cons]
        omega
      · rwa [List.dropWhile_cons_of_pos (by simpa using part)]
      · rw [typeStep, Walker.bind_ok stands.current_eq, if_pos (by exact part),
          Walker.bind_ok taken]
        rfl
    · refine ⟨pos, ?_, ?_, Walker.loop_done ?_⟩
      · rw [List.takeWhile_cons_of_neg (by simpa using part)]
        rfl
      · rwa [List.dropWhile_cons_of_neg (by simpa using part)]
      · rw [typeStep, Walker.bind_ok stands.current_eq, if_neg (by exact part)]
        rfl

/-- From its start, a cut yields the chunks that are enclosed, or fails as reading them does. -/
theorem Split.finish_first (paren : Token) (ts : List Token) :
    finish paren ⟨0, [], []⟩ ts =
      match Declaration.enclosed 0 ts with
      | some inner => .ok (Declaration.chunks inner)
      | none =>
        .error (.malformedDeclaration "unbalanced parentheses in argument list" paren.span) := by
  rw [finish]
  cases Declaration.enclosed 0 ts with
  | none => rfl
  | some inner =>
    have all : append ⟨0, [], []⟩ (Declaration.splitCommas 0 inner) =
        Declaration.splitCommas 0 inner := by
      obtain ⟨chunk, r, cut⟩ := List.exists_cons_of_ne_nil (splitCommas_ne_nil 0 inner)
      rw [cut]
      rfl
    simp only [all, chunks_eq]

/-- The ends of the return type stand where the index came from and where it has come to. -/
theorem run_ends {s : Token.Stream} {first last : Token}
    (starts : (s.tokens.takeWhile (·.kind.isTypePart)).head? = some first)
    (ends : (s.tokens.takeWhile (·.kind.isTypePart)).getLast? = some last) :
    s.all[0]? = some first ∧
      s.all[(s.tokens.takeWhile (·.kind.isTypePart)).length - 1]? = some last := by
  have whole := List.takeWhile_append_dropWhile (p := fun t : Token => t.kind.isTypePart)
    (l := s.tokens)
  generalize s.tokens.takeWhile (·.kind.isTypePart) = run at starts ends whole
  obtain ⟨front, rfl⟩ := List.getLast?_eq_some_iff.mp ends
  rw [Token.Stream.all, ← whole]
  refine ⟨?_, by simp⟩
  rw [← List.head?_eq_getElem?, List.append_assoc, List.head?_append_of_ne_nil]
  · exact starts
  · simp

/-- What the reader does behind the parenthesis that opens the arguments. -/
theorem arguments_yields {source : List Char} {tokens : List Token} {paren : Token}
    {t : Token.Stream} (solid : ∀ u ∈ t.tokens, u.kind ≠ .stop) {pos : Nat}
    (stands : t.StandsAt tokens pos) (make : List Argument → Declaration) :
    Yields ((do
        let chunks ← splitArguments tokens paren
        let args ← Walker.check (argumentsFrom source 0 chunks)
        return make args : Walker Declaration) pos)
      (((do
        match Declaration.enclosed 0 (← get).tokens with
        | some inner => return make (Declaration.arguments source inner)
        | none =>
          throw (.malformedDeclaration "unbalanced parentheses in argument list" paren.span) :
            Reader Declaration) t).map Prod.fst) := by
  obtain ⟨out, walked, split⟩ := split_yields solid stands paren ⟨0, [], []⟩
  change splitArguments tokens paren pos = pure out at walked
  rw [Split.finish_first] at split
  rw [Reader.bind_eq (Reader.get_eq t)]
  cases out with
  | error fault =>
    rw [Walker.bind_error walked]
    cases closed : Declaration.enclosed 0 t.tokens with
    | none =>
      rw [closed] at split
      obtain rfl := Except.error.inj split
      exact ⟨_, rfl, rfl⟩
    | some inner =>
      rw [closed] at split
      cases split
  | ok result =>
    obtain ⟨chunks, next⟩ := result
    rw [Walker.bind_ok walked]
    cases closed : Declaration.enclosed 0 t.tokens with
    | none =>
      rw [closed] at split
      cases split
    | some inner =>
      rw [closed] at split
      obtain rfl : chunks = Declaration.chunks inner := Except.ok.inj split
      rw [Walker.bind_ok (Walker.check_eq (argumentsFrom_eq source _ 0))]
      simp only [Nat.zero_add]
      exact ⟨_, rfl, rfl⟩

/-- Reading by position comes to what reading the stream comes to. -/
theorem reader_yields {source : List Char} {text : String} {line : Nat} {s : Token.Stream}
    (solid : ∀ t ∈ s.tokens, t.kind ≠ .stop) :
    Yields (reader source text line s.all 0)
      ((Declaration.reader source text line s).map Prod.fst) := by
  have stands := Token.Stream.StandsAt.first s
  obtain ⟨stop, place, behind, passed⟩ := typeRun_eq stands
  rw [Nat.zero_add] at place
  rw [reader, Walker.bind_ok (by rfl), Walker.bind_ok passed, Walker.bind_ok (by rfl),
    Declaration.reader, Reader.bind_eq (Reader.get_eq s)]
  cases starts : (s.tokens.takeWhile (·.kind.isTypePart)).head? with
  | none =>
    rw [List.head?_eq_none_iff] at starts
    obtain rfl : stop = 0 := by rw [place, starts]; rfl
    rw [if_pos rfl, Walker.bind_ok stands.current_eq]
    exact ⟨_, rfl, rfl⟩
  | some first =>
    obtain ⟨r, run⟩ := List.head?_eq_some_iff.mp starts
    obtain ⟨last, ends⟩ :
        ∃ last, (s.tokens.takeWhile (·.kind.isTypePart)).getLast? = some last := by
      rw [run]
      exact ⟨_, List.getLast?_eq_some_getLast (List.cons_ne_nil first r)⟩
    obtain ⟨firstItem, lastItem⟩ := run_ends starts ends
    have filled : 1 ≤ stop := by rw [place, run]; exact Nat.le_add_left 1 r.length
    have lastToken : (do item s.all (← minus stop 1)) = pure last := by
      rw [Checked.minus_eq filled, pure_bind, place]
      exact Checked.item_eq lastItem
    rw [if_neg (Nat.ne_of_gt filled), Walker.bind_ok (Walker.check_eq (Checked.item_eq firstItem)),
      Walker.bind_ok (Walker.check_eq lastToken), Walker.bind_ok (Walker.check_eq (text_eq ..)),
      ends]
    dsimp only
    rw [Reader.bind_eq (Reader.set_eq ..)]
    refine (Tracks.expect .openParen).yields behind fun _ _ _ stands => ?_
    refine (Tracks.expect .star).yields stands fun _ _ _ stands => ?_
    refine Tracks.expectName.yields stands fun name _ _ stands => ?_
    refine (Tracks.expect .closeParen).yields stands fun _ _ _ stands => ?_
    refine (Tracks.expect .openParen).yields stands fun paren _ t stands => ?_
    have later := fun u member => solid u (Token.Stream.mem_of_standsAt stands member)
    exact arguments_yields later stands _

theorem firstPointerName?_eq (ts : List Token) : Declaration.firstPointerName? ts =
    (matchIndex pointerTests ts).bind fun i => (ts.drop i)[2]?.bind (·.name?) := by
  refine eq_matchIndex Declaration.firstPointerName? (fun ts => ts[2]?.bind (·.name?)) rfl
    (fun t r => ?_) ts
  match r with
  | [] | [_] | [_, _] => simp [Declaration.firstPointerName?, startsWith, pointerTests]
  | b :: c :: d :: r => simp [Declaration.firstPointerName?, startsWith, pointerTests]

/-- The mark of the end is part of no name of a pointer. -/
theorem firstPointerName?_all (s : Token.Stream) :
    firstPointerName? s.all = pure (Declaration.firstPointerName? s.tokens) := by
  have filled : pointerTests ≠ [] := by simp [pointerTests]
  have fails : ∀ test ∈ pointerTests, ∀ stop, test ⟨.stop, stop⟩ = false := by
    simp [pointerTests, Token.name?, Token.Kind.name?]
  rw [firstPointerName?, firstMatch_eq filled, pure_bind, matchIndex_all filled fails,
    firstPointerName?_eq]
  cases found : matchIndex pointerTests s.tokens with
  | none => rfl
  | some i =>
    have inside : i + 4 ≤ s.tokens.length := matchIndex_le filled found
    have here : i + 2 < s.tokens.length := by omega
    have reached : s.all[i + 2]? = some s.tokens[i + 2] := by
      rw [Token.Stream.all, List.getElem?_append_left here, List.getElem?_eq_getElem here]
    have same : (s.tokens.drop i)[2]? = some s.tokens[i + 2] := by
      rw [List.getElem?_drop, List.getElem?_eq_getElem here]
    simp only [Checked.item_eq reached, pure_bind, Option.bind_some, same]

/-- Every line becomes the same declaration by position. -/
theorem declaration_eq (text : String) (line : Nat) :
    declaration text line = pure (Declaration.ofLine text line).value := by
  have solid : ∀ t ∈ (Token.scan (Text.collapse text).toList line).tokens, t.kind ≠ .stop :=
    fun t member => (Token.located_scan member).kind_ne_stop
  obtain ⟨out, walked, came⟩ :
      Yields (reader (Text.collapse text).toList text line _ 0)
        (Declaration.read (Text.collapse text) text line) := reader_yields solid
  rw [declaration, tokens_eq, pure_bind, walked, pure_bind, Declaration.ofLine, ← came]
  cases out with
  | ok result => rfl
  | error fault =>
    simp only [firstPointerName?_all, pure_bind]
    rfl

end ByPosition

end ScriptGlue
