import ScriptGlue.Proofs.Declaration.Reading
import ScriptGlue.Proofs.Source.Matching
import ScriptGlue.Proofs.Source.Order

/-!
# The outline of a declaration

What the reader accepts, told from the tokens as a whole: a return type, a name in `( * NAME )`, and
the arguments up to the parenthesis that matches the one before them. Everything else becomes a
stand-in.
-/
namespace ScriptGlue

open Token (Kind)

/-! ### Parentheses -/

theorem isBalanced_iff {depth : Nat} {ks : List Kind} :
    isBalanced depth ks = true ↔ Matched .openParen .closeParen depth ks := by
  have apart : Kind.openParen ≠ .closeParen := by decide
  induction ks generalizing depth with
  | nil => rw [isBalanced, beq_iff_eq, Matched.nil_iff]
  | cons k r ih =>
    cases k with
    | openParen =>
      rw [isBalanced]
      exact ih.trans (Matched.open_iff apart).symm
    | closeParen =>
      rw [isBalanced, Bool.and_eq_true, bne_iff_ne]
      cases depth with
      | zero => exact iff_of_false (fun both => both.1 rfl) (Matched.not_close apart)
      | succ depth =>
        rw [and_iff_right (Nat.succ_ne_zero depth)]
        exact ih.trans (Matched.close_iff apart).symm
    | _ =>
      simp only [isBalanced]
      exact ih.trans (Matched.other_iff (by simp) (by simp)).symm

/-- The tokens of a list of arguments: they end at the parenthesis that none of them opens. -/
theorem Declaration.enclosed_eq_some_iff {depth : Nat} {ts inner : List Token} :
    enclosed depth ts = some inner ↔ ∃ close rest, ts = inner ++ close :: rest ∧
      close.kind = .closeParen ∧ Matched .openParen .closeParen depth (inner.map (·.kind)) := by
  have apart : Kind.openParen ≠ .closeParen := by decide
  constructor
  · intro found
    fun_induction enclosed depth ts generalizing inner with
    | case1 => cases found
    | case2 depth t r opens ih =>
      obtain ⟨tail, ends, rfl⟩ := Option.map_eq_some_iff.mp found
      obtain ⟨close, rest, rfl, closes, matched⟩ := ih ends
      refine ⟨close, rest, rfl, closes, ?_⟩
      rwa [List.map_cons, opens, Matched.open_iff apart]
    | case3 t r closes =>
      cases found
      exact ⟨t, r, rfl, closes, Matched.nil_iff.mpr rfl⟩
    | case4 t r depth closes ih =>
      obtain ⟨tail, ends, rfl⟩ := Option.map_eq_some_iff.mp found
      obtain ⟨close, rest, rfl, last, matched⟩ := ih ends
      refine ⟨close, rest, rfl, last, ?_⟩
      rwa [List.map_cons, closes, Matched.close_iff apart]
    | case5 depth t r notOpen zero succ ih =>
      have notClose : t.kind ≠ .closeParen := by
        intro closes
        cases depth with
        | zero => exact zero closes rfl
        | succ depth => exact succ depth closes rfl
      obtain ⟨tail, ends, rfl⟩ := Option.map_eq_some_iff.mp found
      obtain ⟨close, rest, rfl, closes, matched⟩ := ih ends
      refine ⟨close, rest, rfl, closes, ?_⟩
      rwa [List.map_cons, Matched.other_iff notOpen notClose]
  · rintro ⟨close, rest, rfl, closes, matched⟩
    exact enclosed_of_isBalanced closes rest (isBalanced_iff.mpr matched)

/-! ### Chunks -/

/-- Tokens between commas: parentheses match, and what commas there are stand inside them. Before
the chunk, `depth` parentheses are open. -/
structure IsChunk (depth : Nat) (ks : List Kind) : Prop where
  matched : Matched .openParen .closeParen depth ks
  commas : ∀ front, front ++ [.comma] <+: ks →
    front.count .closeParen < front.count .openParen + depth

/-- A list of arguments is cut at the commas outside all parentheses: chunks with one comma between
each two of them make up the list. -/
inductive Parted : Nat → List Token → List (List Token) → Prop
  | last {depth : Nat} {chunk : List Token} (isChunk : IsChunk depth (chunk.map (·.kind))) :
    Parted depth chunk [chunk]
  | comma {depth : Nat} {chunk rest : List Token} {comma : Token} {chunks : List (List Token)}
    (isChunk : IsChunk depth (chunk.map (·.kind))) (isComma : comma.kind = .comma)
    (later : Parted 0 rest chunks) : Parted depth (chunk ++ comma :: rest) (chunk :: chunks)

namespace IsChunk

theorem nil : IsChunk 0 [] where
  matched := Matched.nil_iff.mpr rfl
  commas front isPrefix := by simp [List.prefix_nil] at isPrefix

/-- A kind in front of a chunk is part of it if it is no comma outside all parentheses. -/
theorem cons {depth depth' : Nat} {k : Kind} {ks : List Kind} (isChunk : IsChunk depth' ks)
    (matched : Matched .openParen .closeParen depth (k :: ks))
    (inside : k = .comma → 0 < depth)
    (same : ∀ front : List Kind, front.count .closeParen < front.count .openParen + depth' →
      (k :: front).count .closeParen < (k :: front).count .openParen + depth) :
    IsChunk depth (k :: ks) where
  matched := matched
  commas front isPrefix := by
    cases front with
    | nil =>
      have isComma := (List.cons_prefix_cons.mp isPrefix).1.symm
      simpa using inside isComma
    | cons j front =>
      obtain ⟨rfl, inner⟩ := List.cons_prefix_cons.mp isPrefix
      exact same front (isChunk.commas front inner)

variable {depth : Nat} {ks : List Kind}

theorem openParen (isChunk : IsChunk (depth + 1) ks) : IsChunk depth (.openParen :: ks) := by
  refine isChunk.cons ((Matched.open_iff (by decide)).mpr isChunk.matched) (by simp) ?_
  intro front less
  simp
  omega

theorem closeParen (isChunk : IsChunk depth ks) : IsChunk (depth + 1) (.closeParen :: ks) := by
  refine isChunk.cons ((Matched.close_iff (by decide)).mpr isChunk.matched) (by simp) ?_
  intro front less
  simp
  omega

/-- Any other kind goes into the chunk, and so does a comma where a parenthesis is open. -/
theorem other {k : Kind} (isChunk : IsChunk depth ks) (notOpen : k ≠ .openParen)
    (notClose : k ≠ .closeParen) (inside : k = .comma → 0 < depth) : IsChunk depth (k :: ks) := by
  refine isChunk.cons ((Matched.other_iff notOpen notClose).mpr isChunk.matched) inside ?_
  intro front less
  simpa [notOpen, notClose] using less

end IsChunk

/-- A token that belongs to the first chunk is put in front of it. -/
theorem Parted.cons {depth depth' : Nat} {t : Token} {ts : List Token} {chunks : List (List Token)}
    (parted : Parted depth' ts chunks)
    (into : ∀ chunk : List Token, IsChunk depth' (chunk.map (·.kind)) →
      IsChunk depth ((t :: chunk).map (·.kind))) :
    Parted depth (t :: ts) (intoFirstChunk t chunks) := by
  cases parted with
  | last isChunk => exact .last (into _ isChunk)
  | comma isChunk isComma later => exact .comma (into _ isChunk) isComma later

/-- Whatever matches is cut into chunks. -/
theorem parted_commaChunks {depth : Nat} {ts : List Token}
    (matched : Matched .openParen .closeParen depth (ts.map (·.kind))) :
    Parted depth ts (commaChunks (·.kind) depth ts) := by
  have apart : Kind.openParen ≠ .closeParen := by decide
  induction ts generalizing depth with
  | nil =>
    obtain rfl := Matched.nil_iff.mp matched
    exact .last .nil
  | cons t r ih =>
    rw [List.map_cons] at matched
    rw [commaChunks]
    -- only a comma where no parenthesis is open ends a chunk; all else goes into the first one
    cases kind : t.kind with
    | openParen =>
      rw [kind, Matched.open_iff apart] at matched
      refine (ih matched).cons fun chunk isChunk => ?_
      rw [List.map_cons, kind]
      exact isChunk.openParen
    | closeParen =>
      rw [kind] at matched
      cases depth with
      | zero => exact absurd matched (Matched.not_close apart)
      | succ depth =>
        rw [Matched.close_iff apart] at matched
        refine (ih matched).cons fun chunk isChunk => ?_
        rw [List.map_cons, kind]
        exact isChunk.closeParen
    | comma =>
      rw [kind, Matched.other_iff (by decide) (by decide)] at matched
      by_cases outside : depth = 0
      · subst outside
        have empty : IsChunk 0 (([] : List Token).map (·.kind)) := .nil
        exact .comma empty kind (ih matched)
      · dsimp only
        rw [if_neg outside]
        refine (ih matched).cons fun chunk isChunk => ?_
        exact isChunk.other (by simp [kind]) (by simp [kind]) fun _ => by omega
    | _ =>
      rw [Matched.other_iff (by simp [kind]) (by simp [kind])] at matched
      refine (ih matched).cons fun chunk isChunk => ?_
      exact isChunk.other (by simp [kind]) (by simp [kind]) (by simp [kind])

/-! ### The whole declaration -/

namespace Declaration

/-- Tokens of the form `RET ( * NAME ) ( ARGS )`, perhaps with more tokens behind it. The return
type is as long as it can be, for what follows it is no part of a type. -/
structure HasForm (ts run : List Token) (name : String) (args : List Token) : Prop where
  whole : ∃ marks close rest, ts = run ++ (marks ++ (args ++ close :: rest)) ∧
    marks.map (·.kind) = [.openParen, .star, .ident name, .closeParen, .openParen] ∧
    close.kind = .closeParen
  nonempty : run ≠ []
  types : ∀ t ∈ run, t.kind.isTypePart = true
  matched : Matched .openParen .closeParen 0 (args.map (·.kind))

/-- The form is met where its marks stand behind the longest return type. -/
theorem hasForm_of_marks {ts r args : List Token} {o star named shut paren first : Token}
    {name : String}
    (behind : ts.dropWhile (·.kind.isTypePart) = o :: star :: named :: shut :: paren :: r)
    (head : (ts.takeWhile (·.kind.isTypePart)).head? = some first)
    (marks : [o, star, named, shut, paren].map (·.kind) =
      [.openParen, .star, .ident name, .closeParen, .openParen])
    (inside : enclosed 0 r = some args) :
    HasForm ts (ts.takeWhile (·.kind.isTypePart)) name args := by
  obtain ⟨close, rest, rfl, closes, matched⟩ := enclosed_eq_some_iff.mp inside
  exact {
    whole := by
      refine ⟨_, close, rest, ?_, marks, closes⟩
      conv_lhs => rw [← List.takeWhile_append_dropWhile (p := (·.kind.isTypePart)) (l := ts), behind]
      rfl
    nonempty := by
      intro none
      rw [none] at head
      cases head
    types := fun t member => List.mem_takeWhile_imp (p := fun u : Token => u.kind.isTypePart) member
    matched := matched }

/-- A reader that succeeds has met the form, and what it gives is told from it. -/
theorem exists_form {source : List Char} {text : String} {line : Nat} {s s' : Token.Stream}
    {d : Declaration} (done : reader source text line s = .ok (d, s')) :
    ∃ run name args first last, HasForm s.tokens run name args ∧ run.head? = some first ∧
      run.getLast? = some last ∧ d = {
        name := name
        returnType := textBetween source first last
        args := arguments source args
        text := text
        line := line } := by
  obtain ⟨now, s1, got, done⟩ := Reader.bind_ok done
  cases got
  dsimp only at done
  cases head : (s.tokens.takeWhile (·.kind.isTypePart)).head? with
  | none =>
    rw [head] at done
    obtain ⟨next, s2, -, done⟩ := Reader.bind_ok done
    cases done
  | some first =>
    cases final : (s.tokens.takeWhile (·.kind.isTypePart)).getLast? with
    | none =>
      rw [head, final] at done
      obtain ⟨next, s2, -, done⟩ := Reader.bind_ok done
      cases done
    | some last =>
      rw [head, final] at done
      -- every step has succeeded, so each has met the token that it expects
      obtain ⟨_, s2, stored, done⟩ := Reader.bind_ok done
      cases stored
      obtain ⟨open_, s3, opened, done⟩ := Reader.bind_ok done
      obtain ⟨star, s4, starred, done⟩ := Reader.bind_ok done
      obtain ⟨name, s5, named, done⟩ := Reader.bind_ok done
      obtain ⟨close, s6, closed, done⟩ := Reader.bind_ok done
      obtain ⟨paren, s7, listed, done⟩ := Reader.bind_ok done
      obtain ⟨now, s8, current, done⟩ := Reader.bind_ok done
      cases current
      cases inside : enclosed 0 s7.tokens with
      | none =>
        rw [inside] at done
        cases done
      | some args =>
        rw [inside] at done
        cases done
        obtain ⟨behind, opens⟩ := (Reader.expect_ok_iff (by decide)).mp opened
        obtain ⟨rfl, stars⟩ := (Reader.expect_ok_iff (by decide)).mp starred
        obtain ⟨word, rfl, names⟩ := Reader.expectName_ok_iff.mp named
        obtain ⟨rfl, closes⟩ := (Reader.expect_ok_iff (by decide)).mp closed
        obtain ⟨rfl, lists⟩ := (Reader.expect_ok_iff (by decide)).mp listed
        exact ⟨_, name, args, first, last, hasForm_of_marks (congrArg Token.Stream.tokens behind)
          head (by simp [opens, stars, names, closes, lists]) inside, head, final, rfl⟩

/-- Tokens of the form are read. -/
theorem HasForm.exists_read {ts run args : List Token} {name : String}
    (form : HasForm ts run name args) (source : List Char) (text : String) (line : Nat)
    (stop : Span) : ∃ d s', reader source text line ⟨ts, stop⟩ = .ok (d, s') := by
  obtain ⟨marks, close, rest, rfl, marked, closes⟩ := form.whole
  obtain ⟨o, star, named, shut, paren, rfl, opens, starred, names, shuts, opensAgain⟩ :=
    exists_marks marked
  have inside := enclosed_eq_some_iff.mpr ⟨close, rest, rfl, closes, form.matched⟩
  exact ⟨_, _, reader_eq source text line stop (List.all_eq_true.mpr form.types)
    (List.head?_eq_some_head form.nonempty) (List.getLast?_eq_some_getLast form.nonempty) opens
    starred names shuts opensAgain inside⟩

/-- What a source is read to, and where the reader stops. -/
theorem read_eq_ok_iff {source text : String} {line : Nat} {d : Declaration} :
    read source text line = .ok d ↔
      ∃ s', reader source.toList text line (Token.scan source.toList line) = .ok (d, s') := by
  rw [read, StateT.run']
  cases reader source.toList text line (Token.scan source.toList line) with
  | error fault =>
    refine iff_of_false (fun done => by cases done) ?_
    rintro ⟨s', done⟩
    cases done
  | ok result =>
    constructor
    · intro done
      cases done
      exact ⟨result.2, rfl⟩
    · rintro ⟨s', done⟩
      cases done
      rfl

/-- The chunks of a list of arguments; an empty list has none. -/
def IsCut (args : List Token) (cut : List (List Token)) : Prop :=
  (args = [] ∧ cut = []) ∨ (args ≠ [] ∧ Parted 0 args cut)

theorem isCut_chunks {args : List Token}
    (matched : Matched .openParen .closeParen 0 (args.map (·.kind))) : IsCut args (chunks args) := by
  by_cases empty : args = []
  · exact .inl ⟨empty, by rw [empty]; rfl⟩
  · refine .inr ⟨empty, ?_⟩
    rw [chunks, if_neg (by simpa using empty), splitCommas_eq]
    exact parted_commaChunks matched

/-- Each chunk makes one argument unless it is the lone word `void`. -/
theorem arguments_chunks (source : List Char) (ts : List Token) : arguments source ts =
    ((chunks ts).filter (·.map (·.kind) ≠ [.ident "void"])).mapIdx (argument source) := by
  have lone : (fun chunk : List Token => decide (chunk.map (·.kind) ≠ [.ident "void"])) =
      fun chunk => !isLoneVoid chunk := by
    funext chunk
    rw [isLoneVoid_eq, decide_not]
  rw [lone]
  rfl

/-- The return type is what the source has from the first token of the run to the last one. -/
theorem textBetween_run {source : List Char} {line : Nat} {run behind : List Token}
    {first last : Token} (whole : (Token.scan source line).tokens = run ++ behind)
    (types : ∀ t ∈ run, t.kind.isTypePart = true) (head : run.head? = some first)
    (final : run.getLast? = some last) : textBetween source first last =
      Span.text ⟨first.span.start, last.span.stop, first.span.line⟩ source := by
  have isFirst := List.mem_of_mem_head? head
  have isLast := List.mem_of_getLast? final
  have inside {t : Token} (member : t ∈ run) : t ∈ (Token.scan source line).tokens := by
    rw [whole]
    exact List.mem_append_left behind member
  have ordered : first.span.start ≤ last.span.start := by
    obtain ⟨r, rfl⟩ := List.head?_eq_some_iff.mp head
    rcases List.mem_cons.mp isLast with rfl | later
    · exact Nat.le_refl _
    · have all := Token.ordered_scanFrom (Place.first line) source
      rw [← Token.scan, whole] at all
      have nonempty := (Token.located_scan (inside isFirst)).start_lt_stop
      have apart := List.rel_of_pairwise_cons (List.pairwise_append.mp all).1 later
      omega
  rw [textBetween, Text.trim, Span.text, String.toList_ofList,
    Token.trimChars_slice (inside isFirst) (inside isLast) (types first isFirst)
      (types last isLast) ordered]

/-! ### The name of a stand-in -/

/-- The marks and the name of a pointer to a function. -/
def NamesPointer (name : String) (ks : List Kind) : Prop :=
  [.openParen, .star, .ident name, .closeParen] <+: ks

theorem namesPointer_cons_iff {name : String} {a b c d : Token} {r : List Token} :
    NamesPointer name ((a :: b :: c :: d :: r).map (·.kind)) ↔
      a.kind = .openParen ∧ b.kind = .star ∧ c.name? = some name ∧ d.kind = .closeParen := by
  rw [NamesPointer, Token.name?_eq_some_iff]
  simp [List.cons_prefix_cons, eq_comm]

/-- The name of a pointer is found at the first place where one stands. -/
theorem firstPointerName?_eq_some_iff {ts : List Token} {name : String} :
    firstPointerName? ts = some name ↔ ∃ i,
      FirstAt (fun ks => ∃ other, NamesPointer other ks) (ts.map (·.kind)) i ∧
        NamesPointer name ((ts.map (·.kind)).drop i) := by
  fun_induction firstPointerName? ts with
  | case1 a b c d r marks =>
    obtain ⟨opens, stars, named, closes⟩ := marks
    obtain ⟨word, spelled⟩ := Option.isSome_iff_exists.mp named
    have here := namesPointer_cons_iff (r := r).mpr ⟨opens, stars, spelled, closes⟩
    constructor
    · intro found
      obtain rfl := Option.some.inj (spelled.symm.trans found)
      exact ⟨0, FirstAt.zero_iff.mpr ⟨word, here⟩, here⟩
    · rintro ⟨i, first, names⟩
      cases i with
      | zero => exact (namesPointer_cons_iff.mp names).2.2.1
      | succ i => exact absurd ⟨word, here⟩ (FirstAt.succ_iff.mp first).1
  | case2 a b c d r noMarks ih =>
    have notHere : ¬ ∃ other, NamesPointer other ((a :: b :: c :: d :: r).map (·.kind)) := by
      rintro ⟨other, names⟩
      obtain ⟨opens, stars, spelled, closes⟩ := namesPointer_cons_iff.mp names
      exact noMarks ⟨opens, stars, Option.isSome_iff_exists.mpr ⟨other, spelled⟩, closes⟩
    rw [ih]
    constructor
    · rintro ⟨i, first, names⟩
      exact ⟨i + 1, FirstAt.succ_iff.mpr ⟨notHere, first⟩, names⟩
    · rintro ⟨i, first, names⟩
      cases i with
      | zero => exact absurd (FirstAt.zero_iff.mp first) notHere
      | succ i => exact ⟨i, (FirstAt.succ_iff.mp first).2, names⟩
  | case3 ts short =>
    refine ⟨fun found => (by cases found), ?_⟩
    rintro ⟨i, -, names⟩
    have length := names.length_le
    match ts with
    | [] | [_] | [_, _] | [_, _, _] =>
      simp only [List.length_drop, List.length_map, List.length_cons, List.length_nil] at length
      omega
    | a :: b :: c :: d :: r => exact absurd rfl (short a b c d r)

/-- The name of a stand-in: the first one with the marks of a pointer to a function, or else one
that is made up from the line. -/
def NamesStandIn (ks : List Kind) (line : Nat) (name : String) : Prop :=
  (∃ i, FirstAt (fun ks => ∃ other, NamesPointer other ks) ks i ∧ NamesPointer name (ks.drop i)) ∨
    (∀ i other, ¬ NamesPointer other (ks.drop i)) ∧ name = s!"unknown{line}"

theorem namesStandIn_getD (ts : List Token) (line : Nat) :
    NamesStandIn (ts.map (·.kind)) line ((firstPointerName? ts).getD s!"unknown{line}") := by
  cases found : firstPointerName? ts with
  | some name => exact .inl (firstPointerName?_eq_some_iff.mp found)
  | none =>
    refine .inr ⟨fun i other names => ?_, rfl⟩
    obtain ⟨j, first⟩ := FirstAt.of_exists (p := fun ks => ∃ other, NamesPointer other ks)
      ⟨i, other, names⟩
    obtain ⟨name, here⟩ := first.1
    rw [firstPointerName?_eq_some_iff.mpr ⟨j, first, here⟩] at found
    cases found

/-- A source is read exactly if its tokens have the form of a declaration. Then the return type and
the name are those of the form, and each chunk between the outer commas makes one argument unless it
is the lone word `void`. A line that is not read becomes a stand-in. -/
theorem read_outline (source text : String) (line : Nat) :
    ((∃ d, read source text line = .ok d) ↔ ∃ run name args,
      HasForm (Token.scan source.toList line).tokens run name args) ∧
    (∀ d, read source text line = .ok d → ∃ run name args cut first last,
      HasForm (Token.scan source.toList line).tokens run name args ∧ IsCut args cut ∧
        run.head? = some first ∧ run.getLast? = some last ∧ d = {
          name := name
          returnType := Span.text ⟨first.span.start, last.span.stop, first.span.line⟩ source.toList
          args := (cut.filter (·.map (·.kind) ≠ [.ident "void"])).mapIdx (argument source.toList)
          text := text
          line := line }) ∧
    (∀ d, read (Text.collapse text) text line = .ok d → (ofLine text line).value = d) ∧
    ∀ fault, read (Text.collapse text) text line = .error fault → ∃ name,
      NamesStandIn ((Token.scan (Text.collapse text).toList line).tokens.map (·.kind)) line name ∧
        (ofLine text line).value = ⟨name, "NULL", [], text, line⟩ := by
  refine ⟨⟨?_, ?_⟩, ?_, ?_, ?_⟩
  · rintro ⟨d, done⟩
    obtain ⟨s', taken⟩ := read_eq_ok_iff.mp done
    obtain ⟨run, name, args, first, last, form, -⟩ := exists_form taken
    exact ⟨run, name, args, form⟩
  · rintro ⟨run, name, args, form⟩
    obtain ⟨d, s', taken⟩ := form.exists_read source.toList text line
      (Token.scan source.toList line).stop
    exact ⟨d, read_eq_ok_iff.mpr ⟨s', taken⟩⟩
  · intro d done
    obtain ⟨s', taken⟩ := read_eq_ok_iff.mp done
    obtain ⟨run, name, args, first, last, form, head, final, rfl⟩ := exists_form taken
    obtain ⟨marks, close, rest, whole, -⟩ := form.whole
    refine ⟨run, name, args, chunks args, first, last, form, isCut_chunks form.matched, head, final,
      ?_⟩
    rw [textBetween_run whole form.types head final, arguments_chunks]
  · intro d done
    rw [ofLine]
    simp only [done]
    rfl
  · intro fault failed
    refine ⟨_, namesStandIn_getD (Token.scan (Text.collapse text).toList line).tokens line, ?_⟩
    rw [ofLine]
    simp only [failed]
    rfl

end Declaration

end ScriptGlue
