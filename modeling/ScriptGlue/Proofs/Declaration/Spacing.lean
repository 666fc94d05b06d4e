import Mathlib.Data.List.Forall2
import ScriptGlue.Proofs.Declaration.Grammar
import ScriptGlue.Proofs.Declaration.Reading
import ScriptGlue.Proofs.Source.Lexeme

/-!
# Spacing inside declarations

Two rows of the same words spell the same arguments and types, up to the spaces inside types: what
an argument is depends on its words alone, and where no words fuse, a type is scanned to its words
however they are spaced.
-/
namespace ScriptGlue

open Token (Kind)

/-- Two texts that are scanned to the same tokens. -/
def Respaced (a b : String) : Prop :=
  (Token.scan a.toList 1).tokens.map (·.kind) = (Token.scan b.toList 1).tokens.map (·.kind)

/-- Two arguments that differ in the spacing of their types only. -/
def Argument.Respaced : Argument → Argument → Prop
  | .fixed p, .fixed q => p.name = q.name ∧ p.size = q.size ∧ ScriptGlue.Respaced p.type q.type
  | .variadic, .variadic => True
  | _, _ => False

namespace Row

/-! ### Types -/

/-- What follows identifiers and stars matters only where it goes on with an identifier. -/
theorem apart_types {row : Row} (types : row.kinds.all (·.isTypePart) = true)
    {rest s : List Char} (apart : row.apart rest = true)
    (stop : ∀ c ∈ s.head?, Text.isIdentRest c = false) : row.apart s = true := by
  induction row with
  | nil => rfl
  | cons w r ih =>
    rw [kinds_cons, List.all_cons, Bool.and_eq_true] at types
    rw [Row.apart, Bool.and_eq_true, Bool.not_eq_true'] at apart ⊢
    refine ⟨?_, ih types.2 apart.2⟩
    have alone := apart.1
    cases hw : w.word with
    | ident name valid =>
      rw [hw] at alone
      cases r with
      | nil =>
        rw [Word.fuses, chars_nil, List.nil_append, Option.any_eq_false]
        exact fun c head => by simp [stop c head]
      | cons v r =>
        obtain ⟨c, t, shape⟩ : ∃ c t, chars (v :: r) = c :: t :=
          List.exists_cons_of_ne_nil (by simp [SpacedWord.chars, v.word.chars_ne_nil])
        rw [shape] at alone ⊢
        exact alone
    | mark c valid =>
      have part := types.1
      rw [hw] at part
      have star : c = '*' := Token.eq_star_of_isTypePart part
      rw [Word.fuses_mark (by rw [star]; decide) (by rw [star]; decide)]
    | number | literal | ellipsis =>
      have part := types.1
      rw [hw] at part
      cases part

/-- A row whose words stay apart is scanned to them, from its first word on. -/
theorem kinds_scan_inner {row : Row} (spaces : row.Spaces) (apart : row.apart [] = true)
    (noHash : ∀ w ∈ row.head?, w.word.isHash = false) (line : Nat) :
    (Token.scan row.inner line).tokens.map (·.kind) = row.kinds := by
  cases row with
  | nil =>
    rw [inner, Token.scan, Token.tokens_scanFrom_nil]
    rfl
  | cons w r =>
    have flush : Spaces (⟨[], w.word⟩ :: r) := by
      intro v member
      rcases List.mem_cons.mp member with rfl | member
      · exact fun c inGap => absurd inGap List.not_mem_nil
      · exact spaces v (List.mem_cons_of_mem _ member)
    have here : ∀ v ∈ (⟨[], w.word⟩ :: r : Row).head?, v.word.isHash = false := by
      intro v head
      cases head
      exact noHash w rfl
    have scanned := Token.scanFrom_row flush apart (Place.first line) fun _ => here
    rw [chars_cons, SpacedWord.chars, List.nil_append, List.append_nil] at scanned
    rw [inner, Token.scan, scanned, Token.Stream.pushAll, List.map_append, kinds_tokensFrom,
      Token.tokens_scanFrom_nil]
    exact List.append_nil _

/-- A row with a star right behind it. -/
def starred (row : Row) : Row := row ++ [⟨[], .star⟩]

theorem spaces_starred {row : Row} (spaces : row.Spaces) : (starred row).Spaces := by
  intro w member
  rcases List.mem_append.mp member with member | member
  · exact spaces w member
  · rw [List.mem_singleton.mp member]
    exact fun c inGap => absurd inGap List.not_mem_nil

theorem apart_starred {row : Row} (types : row.kinds.all (·.isTypePart) = true)
    {rest : List Char} (apart : row.apart rest = true) : (starred row).apart [] = true := by
  have stop : ∀ c ∈ ['*'].head?, Text.isIdentRest c = false := by
    intro c head
    cases head
    decide
  have front : row.apart ['*'] = true := apart_types types apart stop
  rw [starred, apart_append, Bool.and_eq_true]
  exact ⟨front, by decide⟩

theorem text_starred (row : Row) :
    String.ofList (starred row).inner = s!"{String.ofList row.inner}*" := by
  cases row with
  | nil => rfl
  | cons w r =>
    have spelled : (starred (w :: r)).inner = inner (w :: r) ++ ['*'] :=
      inner_append (List.cons_ne_nil w r) _
    rw [spelled, String.ofList_append]
    rfl

section Types

variable {a b : Row} (same : a.words = b.words) (types : a.kinds.all (·.isTypePart) = true)
  (spacesLeft : a.Spaces) (spacesRight : b.Spaces) {restLeft restRight : List Char}
  (apartLeft : a.apart restLeft = true) (apartRight : b.apart restRight = true)
include same types spacesLeft spacesRight apartLeft apartRight

/-- Rows of the same identifiers and stars spell the same type. -/
theorem respaced_types : Respaced (String.ofList a.inner) (String.ofList b.inner) := by
  have kinds : a.kinds = b.kinds := by rw [kinds_eq_map_words, kinds_eq_map_words, same]
  have typesRight : b.kinds.all (·.isTypePart) = true := kinds ▸ types
  have left := kinds_scan_inner spacesLeft (apart_types types apartLeft (by simp))
    (isHash_head_types types) 1
  have right := kinds_scan_inner spacesRight (apart_types typesRight apartRight (by simp))
    (isHash_head_types typesRight) 1
  rw [Respaced, String.toList_ofList, String.toList_ofList, left, right, kinds]

/-- So do they with a star behind them. -/
theorem respaced_pointers :
    Respaced s!"{String.ofList a.inner}*" s!"{String.ofList b.inner}*" := by
  have kinds : a.kinds = b.kinds := by rw [kinds_eq_map_words, kinds_eq_map_words, same]
  have typesRight : b.kinds.all (·.isTypePart) = true := kinds ▸ types
  have sameStarred : (starred a).words = (starred b).words := by
    rw [starred, starred, words_append, words_append, same]
  have typesStarred : (starred a).kinds.all (·.isTypePart) = true := by
    rw [starred, kinds_append, List.all_append, types]
    rfl
  have pointers := respaced_types sameStarred typesStarred (spaces_starred spacesLeft)
    (spaces_starred spacesRight) (apart_starred types apartLeft)
    (apart_starred typesRight apartRight)
  rwa [text_starred, text_starred] at pointers

end Types

/-! ### Arguments -/

theorem all_take_of_all {ks : List Kind} (run : ks.all (·.isTypePart) = true) (n : Nat) :
    (ks.take n).all (·.isTypePart) = true :=
  List.all_eq_true.mpr fun k member => List.all_eq_true.mp run k (List.mem_of_mem_take member)

/-- Before the name of an array stand words and stars only. -/
theorem arrayName?_types {ks : List Kind} {name : String} {size lead : Nat}
    (found : arrayName? ks = some (name, size, lead)) :
    (ks.take lead).all (·.isTypePart) = true := by
  obtain ⟨front, number, rfl, -, parts, -, rfl⟩ := arrayName?_eq_some_iff.mp found
  rwa [List.take_left]

/-- What an argument is named and how long it is depends on kinds alone, and its type is spelled by
identifiers and stars. -/
theorem argument_respaced {ks : List Kind} {left right : Nat → String} (index : Nat)
    (types : ∀ n, (ks.take n).all (·.isTypePart) = true →
      Respaced (left n) (right n) ∧ Respaced s!"{left n}*" s!"{right n}*") :
    ((ArgumentShape.ofKinds ks).argument left index).Respaced
      ((ArgumentShape.ofKinds ks).argument right index) := by
  unfold ArgumentShape.ofKinds
  split
  · trivial
  · split
    · exact ⟨rfl, rfl, rfl⟩
    · split
      · rename_i found
        exact ⟨rfl, rfl, (types _ (arrayName?_types found)).2⟩
      · split
        · rename_i run
          rw [Bool.and_eq_true] at run
          have all := all_take_of_all run.2
          unfold ArgumentShape.ofRun
          split
          · exact ⟨rfl, rfl, (types _ (all _)).1⟩
          · split
            · split
              · exact ⟨rfl, rfl, (types _ (all _)).1⟩
              · exact ⟨rfl, rfl, (types _ (all _)).1⟩
            · exact ⟨rfl, rfl, (types _ (all _)).1⟩
        · exact ⟨rfl, rfl, rfl⟩

theorem argumentChunks_congr {α : Type} {f g : α → SpacedWord} {l : List α}
    (same : ∀ a ∈ l, (f a).word = (g a).word) : argumentChunks f l = argumentChunks g l := by
  rw [argumentChunks_eq, argumentChunks_eq]
  exact argumentParts_congr fun a member => congrArg Word.kind (same a member)

theorem spaces_part {row part : Row} (spaces : row.Spaces) (inside : part <:+: row) :
    part.Spaces :=
  fun w member => spaces w (inside.subset member)

theorem apart_part {row part : Row} {rest : List Char} (apart : row.apart rest = true)
    (inside : part <:+: row) : ∃ s, part.apart s = true := by
  obtain ⟨before, after, rfl⟩ := inside
  rw [apart_append, apart_append, Bool.and_eq_true, Bool.and_eq_true] at apart
  exact ⟨_, apart.1.2⟩

/-- Rows of the same words spell the same argument. -/
theorem argument_words {a b : Row} (same : a.words = b.words) (spacesLeft : a.Spaces)
    (spacesRight : b.Spaces) {restLeft restRight : List Char} (apartLeft : a.apart restLeft = true)
    (apartRight : b.apart restRight = true) (index : Nat) :
    (a.argument index).Respaced (b.argument index) := by
  have kinds : a.kinds = b.kinds := by rw [kinds_eq_map_words, kinds_eq_map_words, same]
  rw [argument, argument, ← kinds]
  apply argument_respaced
  intro n types
  have words : Row.words (a.take n) = Row.words (b.take n) := by
    rw [Row.words, Row.words, List.map_take, List.map_take]
    exact congrArg (List.take n) same
  have front : (Row.kinds (a.take n)).all (·.isTypePart) = true := by
    rwa [Row.kinds, List.map_take]
  obtain ⟨s, left⟩ := apart_part apartLeft (List.take_prefix n a).isInfix
  obtain ⟨t, right⟩ := apart_part apartRight (List.take_prefix n b).isInfix
  have leftSpaces := spaces_part spacesLeft (List.take_prefix n a).isInfix
  have rightSpaces := spaces_part spacesRight (List.take_prefix n b).isInfix
  exact ⟨respaced_types words front leftSpaces rightSpaces left right,
    respaced_pointers words front leftSpaces rightSpaces left right⟩

/-- Rows of the same words spell the same arguments. -/
theorem arguments_respaced {a b : Row} (same : a.words = b.words) (spacesLeft : a.Spaces)
    (spacesRight : b.Spaces) {restLeft restRight : List Char} (apartLeft : a.apart restLeft = true)
    (apartRight : b.apart restRight = true) :
    List.Forall₂ Argument.Respaced a.arguments b.arguments := by
  have long : a.length = b.length := by
    have count := congrArg List.length same
    rwa [words, words, List.length_map, List.length_map] at count
  obtain ⟨pairs, rfl, rfl⟩ : ∃ pairs : List (SpacedWord × SpacedWord),
      a = pairs.map Prod.fst ∧ b = pairs.map Prod.snd :=
    ⟨a.zip b, by simp [List.map_fst_zip, long], by simp [List.map_snd_zip, long]⟩
  have paired : ∀ q ∈ pairs, q.1.word = q.2.word := by
    rw [words, words, List.map_map, List.map_map, List.map_inj_left] at same
    exact same
  rw [arguments_map, arguments_map, ← argumentChunks_congr paired, List.mapIdx_eq_zipIdx_map,
    List.mapIdx_eq_zipIdx_map, List.forall₂_map_left_iff, List.forall₂_map_right_iff,
    List.forall₂_same]
  rintro ⟨c, i⟩ member
  have inside : c <:+: pairs :=
    infix_of_mem_argumentChunks (List.fst_mem_of_mem_zipIdx member)
  have words : Row.words (c.map Prod.fst) = Row.words (c.map Prod.snd) := by
    rw [Row.words, Row.words, List.map_map, List.map_map, List.map_inj_left]
    exact fun q here => paired q (inside.subset here)
  exact argument_words words (spaces_part spacesLeft (inside.map Prod.fst))
    (spaces_part spacesRight (inside.map Prod.snd))
    (apart_part apartLeft (inside.map Prod.fst)).choose_spec
    (apart_part apartRight (inside.map Prod.snd)).choose_spec i

end Row

end ScriptGlue
