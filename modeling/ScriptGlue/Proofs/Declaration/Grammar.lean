import ScriptGlue.Proofs.Declaration.Shape
import ScriptGlue.Proofs.Source.Numeral

/-!
# The grammar of arguments

The forms in which headers write arguments, with what each of them stands for. No form is mistaken
for another one: the tests that tell shapes apart overlap, but the one that comes first decides as
the form demands.
-/
namespace ScriptGlue

open Token (Kind)

structure Identifier where
  text : String
  valid : isIdentifier text = true
  deriving DecidableEq, Repr

namespace Identifier

def word (n : Identifier) : Word := .ident n.text n.valid

end Identifier

namespace Word

def star : Word := .mark '*' (by decide)
def openParen : Word := .mark '(' (by decide)
def closeParen : Word := .mark ')' (by decide)
def openBracket : Word := .mark '[' (by decide)
def closeBracket : Word := .mark ']' (by decide)
def comma : Word := .mark ',' (by decide)
def semicolon : Word := .mark ';' (by decide)

end Word

inductive TypePart where
  | name (n : Identifier)
  | star
  deriving DecidableEq, Repr

namespace TypePart

def word : TypePart → Word
  | name n => n.word
  | star => .star

def kind : TypePart → Kind
  | name n => .ident n.text
  | star => .star

/-- Whether a part only qualifies the type after it. -/
def isQualifier : TypePart → Bool
  | name n => Declaration.qualifiers.contains n.text
  | star => false

def typeText (type : List TypePart) : String := Word.spaced (type.map (·.word))

end TypePart

/-- A type without a name behind it. -/
inductive Unnamed : List TypePart → Prop where
  /-- A lone name, which is not that of no type. -/
  | single (n : Identifier) (valued : n.text ≠ "void") : Unnamed [.name n]
  | starred (type : List TypePart) : Unnamed (type ++ [.star])
  /-- The last of several words ends a type, so it names nothing. -/
  | typeWord (type : List TypePart) (n : Identifier) (several : type ≠ [])
      (word : n.text ∈ Declaration.typeWords) : Unnamed (type ++ [.name n])
  | qualified (type : List TypePart) (n : Identifier) (several : type ≠ [])
      (qualifiers : ∀ part ∈ type, part.isQualifier = true) : Unnamed (type ++ [.name n])

inductive Param where
  | named (type : List TypePart) (name : Identifier)
  | array (type : List TypePart) (name : Identifier) (size : SizeLiteral)
  /-- A function pointer, of any words. -/
  | callback (words : List Word)
  | variadic
  | unnamed (type : List TypePart)

namespace Param

/-- What a form demands of its parts. -/
def WellFormed : Param → Prop
  | named type name =>
    type ≠ [] ∧ (∃ part ∈ type, part.isQualifier = false) ∧ name.text ∉ Declaration.typeWords
  | array type _ size => type ≠ [] ∧ size.value < Token.integerLimit
  | callback words =>
    isBalanced 0 (words.map (·.kind)) = true ∧ isCommaFree 0 (words.map (·.kind)) = true ∧
      [.openParen, .star] <:+: words.map (·.kind)
  | variadic => True
  | unnamed type => Unnamed type

def words : Param → List Word
  | named type name => type.map (·.word) ++ [name.word]
  | array type name size =>
    type.map (·.word) ++ [name.word, .openBracket, size.word, .closeBracket]
  | callback words => words
  | variadic => [.ellipsis]
  | unnamed type => type.map (·.word)

def kinds (p : Param) : List Kind := p.words.map (·.kind)

/-- The name of a function pointer: what follows the first `( *`, if it is a name and the
parenthesis is closed right after it. -/
def callbackName? (words : List Word) : Option String :=
  (afterMark (words.map (·.kind))).bind markedName?

def argument (index : Nat) : Param → Argument
  | named type name => .fixed { name := name.text, type := TypePart.typeText type }
  | array type name size =>
    .fixed { name := name.text, type := s!"{TypePart.typeText type}*", size := some size.value }
  | callback words =>
    .fixed { name := (callbackName? words).getD s!"callback{index}", type := "void*" }
  | variadic => .variadic
  | unnamed type => .fixed { name := s!"value{index}", type := TypePart.typeText type }

def shape : Param → ArgumentShape
  | named type name => .typed (some name.text) type.length
  | array type name size => .array name.text size.value type.length
  | callback words => .callback (callbackName? words)
  | variadic => .variadic
  | unnamed type => .typed none type.length

end Param

/-! ### Telling forms apart -/

theorem afterMark_eq_none {ks : List Kind} (flat : ∀ k ∈ ks, k ≠ .openParen) :
    afterMark ks = none := by
  fun_induction afterMark ks with
  | case1 a b r mark => exact absurd mark.1 (flat a List.mem_cons_self)
  | case2 a b r mark ih => exact ih fun k member => flat k (List.mem_cons_of_mem _ member)
  | case3 ks short => rfl

theorem afterMark_isSome {ks : List Kind} (marked : [.openParen, .star] <:+: ks) :
    (afterMark ks).isSome = true := by
  obtain ⟨before, after, rfl⟩ := marked
  induction before with
  | nil => simp [afterMark]
  | cons k r ih =>
    rw [List.append_assoc, List.cons_append, ← List.append_assoc]
    cases rest : r ++ [.openParen, .star] ++ after with
    | nil => simp at rest
    | cons b t =>
      rw [rest] at ih
      rw [afterMark]
      split
      · rfl
      · exact ih

theorem arrayName?_eq_none {ks : List Kind} (last : ks.getLast? ≠ some .closeBracket) :
    arrayName? ks = none := by
  by_contra array
  obtain ⟨⟨name, n, count⟩, found⟩ := Option.ne_none_iff_exists'.mp array
  obtain ⟨lead, size, rfl, -⟩ := arrayName?_eq_some_iff.mp found
  exact last (by simp)

/-- Names and stars are told as a run. -/
theorem ofKinds_run {ks : List Kind} (ne : ks ≠ []) (run : ks.all (·.isTypePart) = true) :
    ArgumentShape.ofKinds ks = ArgumentShape.ofRun ks := by
  have parts : ∀ k ∈ ks, k.isTypePart = true := List.all_eq_true.mp run
  have noDots : ks ≠ [.ellipsis] := by
    rintro rfl
    cases run
  have noMark : afterMark ks = none := by
    apply afterMark_eq_none
    rintro k member rfl
    cases parts _ member
  have noArray : arrayName? ks = none := by
    apply arrayName?_eq_none
    intro last
    cases parts _ (List.mem_of_getLast? last)
  have some : ks.isEmpty = false := by simpa using ne
  rw [ArgumentShape.ofKinds, if_neg noDots, noMark, noArray]
  simp only [some, run, Bool.not_false, Bool.true_and, if_true]

/-- An array is told as one, since it has no mark of a function pointer. -/
theorem ofKinds_of_arrayName? {ks : List Kind} {name : String} {n count : Nat}
    (found : arrayName? ks = some (name, n, count)) :
    ArgumentShape.ofKinds ks = .array name n count := by
  obtain ⟨lead, size, whole, -, parts, sized, -⟩ := arrayName?_eq_some_iff.mp found
  have noDots : ks ≠ [.ellipsis] := by
    intro dots
    rw [dots] at whole
    simpa using congrArg List.length whole
  have noMark : afterMark ks = none := by
    apply afterMark_eq_none
    rintro k member rfl
    rw [whole] at member
    rcases List.mem_append.mp member with inside | behind
    · cases List.all_eq_true.mp parts .openParen inside
    · simp only [List.mem_cons, reduceCtorEq, false_or, List.not_mem_nil, or_false] at behind
      rw [← behind] at sized
      cases sized
  rw [ArgumentShape.ofKinds, if_neg noDots, noMark, found]

section Runs

variable {type : List TypePart} {ks : List Kind}

theorem kind_word (part : TypePart) : part.word.kind = part.kind := by
  cases part <;> rfl

theorem kinds_type (type : List TypePart) :
    (type.map (·.word)).map (·.kind) = type.map (·.kind) := by
  simp [kind_word]

theorem isTypePart_kind (part : TypePart) : part.kind.isTypePart = true := by
  cases part <;> rfl

theorem all_isTypePart (type : List TypePart) :
    (type.map (·.kind)).all (·.isTypePart) = true := by
  simp [isTypePart_kind]

theorem isQualifier_kind (part : TypePart) : isQualifier part.kind = part.isQualifier := by
  cases part <;> rfl

/-- A name with something before it is no lone type. -/
theorem isLone_append {lead : List Kind} (ne : lead ≠ []) (name : String) :
    ArgumentShape.isLone (lead ++ [.ident name]) = false := by
  have bound := List.countP_le_length (p := (· = Kind.star)) (l := lead)
  rw [ArgumentShape.isLone, decide_eq_false_iff_not]
  rintro ⟨one, few, word⟩
  simp only [List.length_append, List.countP_append, List.length_cons, List.length_nil,
    List.countP_cons_of_neg, List.countP_nil, reduceCtorEq, decide_false, Bool.false_eq_true,
    not_false_eq_true, Nat.add_zero] at one few
  -- all that stands before the name would have to be one star, and that is no word
  have pos := List.length_pos_iff.mpr ne
  obtain ⟨k, rfl⟩ := List.length_eq_one_iff.mp (show lead.length = 1 by omega)
  have star : k = .star := by simpa using (show [k].countP (· = Kind.star) = 1 by omega)
  rw [star] at word
  cases word

/-- A name behind a type that it does not belong to is told as a name. -/
theorem ofRun_named {name : Identifier} (ne : type ≠ [])
    (typed : ∃ part ∈ type, part.isQualifier = false)
    (free : name.text ∉ Declaration.typeWords) :
    ArgumentShape.ofRun (type.map (·.kind) ++ [Kind.ident name.text]) =
      .typed (some name.text) type.length := by
  have qualified : (type.map (·.kind)).all isQualifier = false := by
    obtain ⟨part, member, solid⟩ := typed
    rw [List.all_eq_false]
    exact ⟨part.kind, List.mem_map_of_mem member, by simp [isQualifier_kind, solid]⟩
  rw [ArgumentShape.ofRun, isLone_append (by simpa using ne)]
  simp [Kind.name?, qualified, free]

/-- A type without a name is told as one. -/
theorem ofRun_unnamed (unnamed : Unnamed type) :
    ArgumentShape.ofRun (type.map (·.kind)) = .typed none type.length := by
  cases unnamed with
  | single n valued => rfl
  | starred type => simp [ArgumentShape.ofRun, TypePart.kind, Kind.name?]
  | typeWord type n several word =>
    rw [List.map_append, List.map_singleton, TypePart.kind, ArgumentShape.ofRun,
      isLone_append (by simpa using several)]
    simp [Kind.name?, word]
  | qualified type n several qualifiers =>
    have qualified : (type.map (·.kind)).all isQualifier = true := by
      simpa [List.all_map, isQualifier_kind] using qualifiers
    rw [List.map_append, List.map_singleton, TypePart.kind, ArgumentShape.ofRun,
      isLone_append (by simpa using several)]
    simp [Kind.name?, qualified]

/-- The form `TYPE name[N]` is told as an array. -/
theorem ofKinds_array {name : Identifier} {size : SizeLiteral} (ne : type ≠ [])
    (bound : size.value < Token.integerLimit) :
    ArgumentShape.ofKinds (type.map (·.kind) ++
        [.ident name.text, .openBracket, size.word.kind, .closeBracket]) =
      .array name.text size.value type.length :=
  ofKinds_of_arrayName? <| arrayName?_eq_some_iff.mpr
    ⟨type.map (·.kind), size.word.kind, rfl, by simpa using ne, all_isTypePart type,
      SizeLiteral.toNat?_word size bound, List.length_map _⟩

end Runs

namespace Param

/-- Every form is told as what it is. -/
theorem ofKinds_kinds {p : Param} (valid : p.WellFormed) :
    ArgumentShape.ofKinds p.kinds = p.shape := by
  cases p with
  | named type name =>
    obtain ⟨ne, typed, free⟩ := valid
    have run : (type.map (·.kind) ++ [Kind.ident name.text]).all (·.isTypePart) = true := by
      rw [List.all_append, all_isTypePart]
      rfl
    rw [kinds, words, List.map_append, kinds_type, List.map_singleton, Identifier.word, Word.kind,
      ofKinds_run (by simp) run]
    exact ofRun_named ne typed free
  | array type name size =>
    obtain ⟨ne, bound⟩ := valid
    rw [kinds, words, List.map_append, kinds_type]
    exact ofKinds_array ne bound
  | callback words =>
    obtain ⟨-, -, marked⟩ := valid
    obtain ⟨rest, mark⟩ := Option.isSome_iff_exists.mp (afterMark_isSome marked)
    have noDots : words.map (·.kind) ≠ [.ellipsis] := by
      intro single
      have long := marked.length_le
      simp [single] at long
    rw [kinds, Param.words, ArgumentShape.ofKinds, if_neg noDots, mark, shape, callbackName?, mark]
    rfl
  | variadic => rfl
  | unnamed type =>
    have ne : type ≠ [] := by
      cases valid <;> simp
    rw [kinds, words, kinds_type, ofKinds_run (by simpa using ne) (all_isTypePart type)]
    exact ofRun_unnamed valid

end Param

end ScriptGlue
