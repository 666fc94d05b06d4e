import ScriptGlue.Proofs.Source.GapPieces

/-!
# Pieces of a source

The scanner takes a source apart into gaps and the texts of tokens. These pieces make up the source,
and those that are no gaps have the kinds of its tokens, so what holds of comments, directives or
literals of a source can be said of its pieces.
-/
namespace ScriptGlue

open Token (Kind)

/-- A gap, or the text of a token with the kind of the token. -/
structure Piece where
  kind? : Option Kind
  chars : List Char
  deriving DecidableEq, Repr

namespace Piece

def isGap (x : Piece) : Bool := x.kind?.isNone

/-- A directive, with all lines that it goes on over. -/
def isDirective (x : Piece) : Bool := x.isGap && x.chars.head? == some '#'

def isLiteral (x : Piece) : Bool :=
  match x.kind? with
  | some (.literal _) => true
  | _ => false

def text (xs : List Piece) : List Char := xs.flatMap (·.chars)

@[simp] theorem text_cons (x : Piece) (r : List Piece) : text (x :: r) = x.chars ++ text r := by
  simp [text]

end Piece

/-- Whether a directive may start behind a text, where `fresh` says whether it may before. -/
def Place.freshAfter (fresh : Bool) (s : List Char) : Bool :=
  s.foldl (fun fresh c => c == '\n' || (fresh && Text.isBlank c)) fresh

theorem Place.fresh_after_eq (p : Place) (s : List Char) :
    (p.after s).fresh = freshAfter p.fresh s := by
  induction s generalizing p with
  | nil => rfl
  | cons c r ih => exact ih (p.next c)

namespace Token

/-- What turns a slash before it into the start of a comment. -/
def opensComment (c : Char) : Bool := c == '/' || c == '*'

theorem gap?_space {c : Char} (space : isSpace c = true) (fresh : Bool) (r : List Char) :
    gap? fresh (c :: r) = some ⟨[c], r⟩ := by
  simp [gap?, space]

theorem head?_opensComment {r : List Char} (noBlock : ∀ t, r ≠ '*' :: t)
    (noLine : ∀ t, r ≠ '/' :: t) : r.head?.any opensComment = false := by
  cases r with
  | nil => rfl
  | cons d t =>
    have star : d ≠ '*' := fun same => noBlock t (by rw [same])
    have slash : d ≠ '/' := fun same => noLine t (by rw [same])
    simp [opensComment, star, slash]

/-- A token starts where no blank, comment or directive does. -/
theorem gap?_eq_none_iff {fresh : Bool} {c : Char} {r : List Char} :
    gap? fresh (c :: r) = none ↔ isSpace c = false ∧
      (c = '/' → r.head?.any opensComment = false) ∧ (c = '#' → fresh = false) := by
  unfold gap?
  by_cases space : isSpace c = true
  · simp [space]
  · simp only [if_neg space]
    split
    · simp [opensComment]
    · simp [opensComment]
    · cases fresh <;> simp [space]
    · rename_i noHash noLine noBlock
      have other : c = '/' → r.head?.any opensComment = false := fun slash =>
        head?_opensComment (fun t => noBlock t slash) fun t => noLine t slash
      simp only [true_iff]
      exact ⟨by simpa using space, other, fun hash => absurd hash noHash⟩

def pieces (fresh : Bool) (s : List Char) : List Piece :=
  match _h : gap? fresh s with
  | some cut => ⟨none, cut.piece⟩ :: pieces (Place.freshAfter fresh cut.piece) cut.rest
  | none =>
    match s with
    | [] => []
    | c :: r =>
      let l := lexeme c r
      ⟨some l.kind, l.cut.piece⟩ :: pieces (Place.freshAfter fresh l.cut.piece) l.cut.rest
termination_by s.length
decreasing_by
  · exact gap?_rest_lt _h
  · have := lexeme_rest_le c r
    simp only [List.length_cons]
    omega

@[simp] theorem pieces_nil (fresh : Bool) : pieces fresh [] = [] := by
  rw [pieces]
  rfl

theorem pieces_gap {fresh : Bool} {s : List Char} {cut : Cut} (found : gap? fresh s = some cut) :
    pieces fresh s =
      ⟨none, cut.piece⟩ :: pieces (Place.freshAfter fresh cut.piece) cut.rest := by
  rw [pieces]
  split
  · rename_i cut' same
    rw [found] at same
    cases same
    rfl
  · rename_i other
    rw [found] at other
    cases other

/-- Where no gap starts, the next piece is a token. -/
theorem pieces_token {fresh : Bool} {c : Char} {r : List Char}
    (noGap : gap? fresh (c :: r) = none) :
    pieces fresh (c :: r) = ⟨some (lexeme c r).kind, (lexeme c r).cut.piece⟩ ::
      pieces (Place.freshAfter fresh (lexeme c r).cut.piece) (lexeme c r).cut.rest := by
  rw [pieces]
  split
  · rename_i cut found
    rw [noGap] at found
    cases found
  · rfl

/-- The pieces of a source make up the source. -/
theorem text_pieces (fresh : Bool) (s : List Char) : Piece.text (pieces fresh s) = s := by
  fun_induction pieces fresh s with
  | case1 fresh s cut found ih =>
    rw [Piece.text_cons, ih]
    exact (isPiece_of_gap? found).2
  | case2 => rfl
  | case3 fresh c r noGap l ih =>
    rw [Piece.text_cons, ih]
    exact (isLexeme_lexeme c r).whole

/-- The pieces that are no gaps have the kinds of the tokens. -/
theorem kinds_scanFrom (p : Place) (s : List Char) :
    (scanFrom p s).tokens.map (·.kind) = (pieces p.fresh s).filterMap (·.kind?) := by
  fun_induction scanFrom p s with
  | case1 p s cut found ih =>
    rw [pieces_gap found, ih, Place.fresh_after_eq]
    rfl
  | case2 p noGap => rw [pieces_nil]; rfl
  | case3 p c r noGap l stop ih =>
    rw [pieces_token noGap, Stream.push, List.map_cons, ih, List.filterMap_cons]
    simp only [Place.fresh_after_eq]
    rfl

end Token

end ScriptGlue
