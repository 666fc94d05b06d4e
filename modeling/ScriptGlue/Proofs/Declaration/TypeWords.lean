import ScriptGlue.Proofs.Declaration.ArgumentNames
import ScriptGlue.Proofs.Declaration.Excerpt
import ScriptGlue.Proofs.Declaration.Grammar

/-!
# Type words

A word that ends a type names no parameter where a parameter is words and stars alone. The test for
this is missed in front of brackets, where the last word is always taken for the name, and it does
not know the qualifiers that may end a type. These are the only ways in which a type loses words.
-/
namespace ScriptGlue

open Token (Kind)

def names (ks : List Kind) : List String := ks.filterMap (·.name?)

/-- The words and stars at the front of a parameter. -/
def typeFront (ks : List Kind) : List Kind := ks.takeWhile (·.isTypePart)

def typeNames (type : String) : List String := names (Token.kinds type.toList)

/-- Words and stars, then a name with a length in brackets. -/
def IsArrayOf (name : String) (ks : List Kind) : Prop :=
  ∃ lead size, ks = lead ++ [.ident name, .openBracket, size, .closeBracket] ∧ lead ≠ [] ∧
    lead.all (·.isTypePart) = true ∧ size.toNat?.isSome = true

/-- A parameter that is not named: its words and stars are all of its type, for the last of them is
a star, or a word that names nothing, or the first one that is no qualifier. -/
structure IsNameless (ks : List Kind) : Prop where
  starts : (ks.head?.bind (·.name?)).isSome = true
  ends : ∀ name, (typeFront ks).getLast? = some (.ident name) →
    name ∈ Declaration.typeWords ∨ name ∈ Declaration.qualifiers ∨
      (typeFront ks).dropLast.all isQualifier = true

/-- Words and stars whose last word is a qualifier, though they have had a type already. -/
def EndsQualified (ks : List Kind) : Prop :=
  ∃ lead name, ks = lead ++ [.ident name] ∧ name ∈ Declaration.qualifiers ∧
    name ∉ Declaration.typeWords ∧ lead.all isQualifier = false

/-! ### Names -/

theorem afterMark_eq_none_iff {ks : List Kind} :
    afterMark ks = none ↔ ¬ [.openParen, .star] <:+: ks := by
  constructor
  · intro noMark marked
    have found := afterMark_isSome marked
    rw [noMark] at found
    cases found
  · intro noInfix
    fun_induction afterMark ks with
    | case1 a b r mark =>
      obtain ⟨rfl, rfl⟩ := mark
      exact absurd ⟨[], r, rfl⟩ noInfix
    | case2 a b r mark ih =>
      exact ih fun later => noInfix (later.trans (List.suffix_cons a _).isInfix)
    | case3 ks short => rfl

theorem names_append (ks js : List Kind) : names (ks ++ js) = names ks ++ names js :=
  List.filterMap_append

@[simp] theorem names_ident (name : String) : names [.ident name] = [name] := rfl

theorem not_sublist_names (lead : List Kind) (name : String) :
    ¬ (names (lead ++ [.ident name])).Sublist (names lead) := by
  intro kept
  have shorter := kept.length_le
  rw [names_append, names_ident, List.length_append] at shorter
  exact Nat.not_succ_le_self _ shorter

/-- An array is told from the names around it. -/
theorem isArrayOf_iff {name : String} {ks : List Kind} :
    IsArrayOf name ks ↔ ∃ size n, arrayName? ks = some (name, size, n) := by
  constructor
  · rintro ⟨lead, size, rfl, ne, parts, sized⟩
    obtain ⟨value, number⟩ := Option.isSome_iff_exists.mp sized
    exact ⟨value, lead.length,
      arrayName?_eq_some_iff.mpr ⟨lead, size, rfl, ne, parts, number, rfl⟩⟩
  · rintro ⟨value, count, found⟩
    obtain ⟨lead, size, rfl, ne, parts, number, -⟩ := arrayName?_eq_some_iff.mp found
    exact ⟨lead, size, rfl, ne, parts, by rw [number]; rfl⟩

/-- A name that is made up from a number is no type word. -/
theorem numbered_not_typeWord (index : Nat) : s!"value{index}" ∉ Declaration.typeWords := by
  intro word
  have letters : ("value" ++ index.repr).toList.take 2 ∈
      Declaration.typeWords.map (·.toList.take 2) := List.mem_map_of_mem word
  have start : ("value" ++ index.repr).toList.take 2 = ['v', 'a'] := by
    rw [String.toList_append]
    rfl
  have none : ['v', 'a'] ∉ Declaration.typeWords.map (·.toList.take 2) := by decide
  exact none (start ▸ letters)

/-- What words and stars are told as: a name behind a type, or else a type alone. -/
theorem ofRun_cases (ks : List Kind) :
    (∃ lead name, ks = lead ++ [.ident name] ∧ name ∉ Declaration.typeWords ∧
      lead.all isQualifier = false ∧ ArgumentShape.ofRun ks = .typed (some name) lead.length) ∨
    (∀ lead name, ks = lead ++ [.ident name] →
      name ∈ Declaration.typeWords ∨ lead.all isQualifier = true) ∧
      ArgumentShape.ofRun ks = .typed none ks.length := by
  rcases List.eq_nil_or_concat' ks with rfl | ⟨lead, k, rfl⟩
  · exact .inr ⟨fun lead name whole => by simp at whole, rfl⟩
  · by_cases free : ∃ name, k = .ident name ∧ name ∉ Declaration.typeWords ∧
        lead.all isQualifier = false
    · obtain ⟨name, rfl, free, type⟩ := free
      have ne : lead ≠ [] := by
        rintro rfl
        cases type
      refine .inl ⟨lead, name, rfl, free, type, ?_⟩
      rw [ArgumentShape.ofRun, isLone_append ne]
      simp [Kind.name?, free, type]
    · refine .inr ⟨fun before name whole => ?_, ?_⟩
      · obtain ⟨rfl, same⟩ := List.append_inj' whole rfl
        cases same
        by_contra neither
        rw [not_or] at neither
        exact free ⟨name, rfl, neither.1, by simpa using neither.2⟩
      · rw [ArgumentShape.ofRun, List.getLast?_concat, List.dropLast_concat]
        split
        · rfl
        · cases k with
          | ident name =>
            have word :
                (!Declaration.typeWords.contains name && !lead.all isQualifier) = false := by
              by_contra named
              simp only [Bool.not_eq_false, Bool.and_eq_true, Bool.not_eq_true',
                List.contains_eq_mem, decide_eq_false_iff_not] at named
              exact free ⟨name, rfl, named⟩
            simp only [Option.bind_some, Kind.name?, word, Bool.false_eq_true, if_false]
          | _ => rfl

/-- Of what is no function pointer, only an array is ever named by a type word. -/
theorem name_eq_typeWord_iff {ks : List Kind} (noMark : afterMark ks = none)
    (text : Nat → String) (index : Nat) {word : String} (isWord : word ∈ Declaration.typeWords) :
    ((ArgumentShape.ofKinds ks).argument text index).name = word ↔ IsArrayOf word ks := by
  rw [ArgumentShape.ofKinds]
  split
  · rename_i dots
    have other : Argument.variadicName ∉ Declaration.typeWords := by decide
    refine iff_of_false ?_ ?_
    · rintro rfl
      exact other isWord
    · rintro ⟨lead, size, whole, -⟩
      simpa [dots] using congrArg List.length whole
  · rw [noMark, isArrayOf_iff]
    cases array : arrayName? ks with
    | some parts =>
      obtain ⟨name, size, n⟩ := parts
      constructor
      · rintro rfl
        exact ⟨size, n, rfl⟩
      · rintro ⟨_, _, same⟩
        cases same
        rfl
    | none =>
      refine iff_of_false ?_ (by simp)
      rintro rfl
      dsimp only at isWord
      split at isWord
      · rcases ofRun_cases ks with ⟨lead, name, -, free, -, shape⟩ | ⟨-, shape⟩
        · rw [shape] at isWord
          exact free isWord
        · rw [shape] at isWord
          exact numbered_not_typeWord index isWord
      · exact numbered_not_typeWord index isWord

/-! ### Words of types -/

theorem typeFront_append {lead behind : List Kind} (parts : lead.all (·.isTypePart) = true)
    (stops : behind.head?.any (·.isTypePart) = false) : typeFront (lead ++ behind) = lead := by
  rw [typeFront, List.takeWhile_append_of_pos fun k member => List.all_eq_true.mp parts k member]
  cases behind with
  | nil => exact List.append_nil lead
  | cons k r =>
    rw [List.takeWhile_cons_of_neg (by simpa using stops), List.append_nil]

theorem typeFront_eq_self_iff {ks : List Kind} :
    typeFront ks = ks ↔ ks.all (·.isTypePart) = true := by
  rw [typeFront, List.takeWhile_eq_self_iff, List.all_eq_true]

/-- What `text` gives for a number of leading words and stars has all their names, also with a star
behind it. -/
def SpellsNames (text : Nat → String) (ks : List Kind) : Prop :=
  ∀ n ≠ 0, (ks.take n).all (·.isTypePart) = true →
    typeNames (text n) = names (ks.take n) ∧ typeNames s!"{text n}*" = names (ks.take n)

namespace IsNameless

variable {ks lead behind : List Kind} {text : Nat → String}

theorem typeFront_ne_nil (nameless : IsNameless ks) : typeFront ks ≠ [] := by
  intro empty
  cases ks with
  | nil => cases nameless.starts
  | cons k r =>
    obtain ⟨name, word⟩ := Option.isSome_iff_exists.mp nameless.starts
    obtain rfl := Token.Kind.name?_eq_some_iff.mp word
    cases empty

/-- The type of a parameter without a name starts with a word, so it has names up to any place. -/
theorem names_ne_nil (nameless : IsNameless (lead ++ behind)) (ne : lead ≠ []) :
    names lead ≠ [] := by
  obtain ⟨k, r, rfl⟩ := List.exists_cons_of_ne_nil ne
  obtain ⟨name, word⟩ := Option.isSome_iff_exists.mp nameless.starts
  have named : k.name? = some name := word
  rw [names, List.filterMap_cons_some named]
  exact List.cons_ne_nil _ _

/-- A word behind the start of a type is not its only one. -/
theorem names_ne_void (nameless : IsNameless (lead ++ behind)) (ne : lead ≠ []) (name : String) :
    names (lead ++ [.ident name]) ≠ ["void"] := by
  intro single
  have start := List.length_pos_iff.mpr (nameless.names_ne_nil ne)
  have length := congrArg List.length single
  simp only [names_append, List.length_append, names_ident, List.length_cons,
    List.length_nil] at length
  omega

/-- Of words and stars alone, the type takes all but a qualifier at the end. -/
theorem run_keeps_iff (nameless : IsNameless ks) (spelled : SpellsNames text ks)
    (whole : ks.all (·.isTypePart) = true) (index : Nat) :
    (names ks).Sublist (typeNames ((ArgumentShape.ofRun ks).argument text index).type) ↔
      ¬ EndsQualified ks := by
  have nonempty : ks ≠ [] := by
    rintro rfl
    cases nameless.starts
  rcases ofRun_cases ks with ⟨lead, name, rfl, free, type, shape⟩ | ⟨bare, shape⟩
  · -- the last word is taken for the name, so it is a qualifier and goes
    have ne : lead ≠ [] := by
      rintro rfl
      cases type
    have front := typeFront_eq_self_iff.mpr whole
    have qualifier : name ∈ Declaration.qualifiers := by
      rcases nameless.ends name (by rw [front, List.getLast?_concat]) with word | qualifier | all
      · exact absurd word free
      · exact qualifier
      · rw [front, List.dropLast_concat, type] at all
        cases all
    have parts : lead.all (·.isTypePart) = true := by
      rw [List.all_append, Bool.and_eq_true] at whole
      exact whole.1
    have kept := (spelled lead.length (by simpa using ne) (by simpa using parts)).1
    rw [List.take_left] at kept
    rw [shape, ArgumentShape.argument, Argument.type, kept]
    exact iff_of_false (not_sublist_names lead name)
      (not_not.mpr ⟨lead, name, rfl, qualifier, free, type⟩)
  · have kept := (spelled ks.length (by simpa using nonempty) (by simpa using whole)).1
    rw [List.take_length] at kept
    rw [shape, ArgumentShape.argument, Argument.type, kept]
    refine iff_of_true (List.Sublist.refl _) ?_
    rintro ⟨lead, name, rfl, -, free, type⟩
    rcases bare lead name rfl with word | all
    · exact free word
    · rw [type] at all
      cases all

/-- With anything behind the words and stars, the last word is taken for the name of an array, or
nothing is understood. -/
theorem suffix_keeps_iff (nameless : IsNameless ks) (noMark : afterMark ks = none)
    (spelled : SpellsNames text ks) (more : ks.all (·.isTypePart) = false) (index : Nat) :
    (names (typeFront ks)).Sublist
        (typeNames ((ArgumentShape.ofKinds ks).argument text index).type) ↔
      names (typeFront ks) = ["void"] := by
  have noDots : ks ≠ [.ellipsis] := by
    rintro rfl
    cases nameless.starts
  have apart : typeFront ks ++ ks.dropWhile (·.isTypePart) = ks := List.takeWhile_append_dropWhile
  rw [ArgumentShape.ofKinds, if_neg noDots, noMark, more, Bool.and_false]
  cases array : arrayName? ks with
  | some parts =>
    obtain ⟨name, size, n⟩ := parts
    have length := (Declaration.arrayName?_lead array).2
    obtain ⟨lead, number, rfl, ne, types, -⟩ := isArrayOf_iff.mpr ⟨size, n, array⟩
    obtain rfl : n = lead.length := by simpa using length
    have kept := (spelled lead.length (by simpa using ne) (by simpa using types)).2
    rw [List.take_left] at kept
    have front : typeFront (lead ++ [.ident name, .openBracket, number, .closeBracket]) =
        lead ++ [.ident name] := by
      rw [← List.singleton_append, ← List.append_assoc]
      exact typeFront_append (by rw [List.all_append, types]; rfl) rfl
    simp only [ArgumentShape.argument, Argument.type]
    rw [kept, front]
    exact iff_of_false (not_sublist_names lead name) (nameless.names_ne_void ne name)
  | none =>
    have void : typeNames "void*" = ["void"] := by decide +kernel
    have ne : names (typeFront ks) ≠ [] := by
      have start := nameless.typeFront_ne_nil
      rw [← apart] at nameless
      exact nameless.names_ne_nil start
    simp only [ArgumentShape.argument, Argument.type, void, Bool.false_eq_true, if_false]
    rw [List.sublist_singleton, or_iff_right ne]

/-- The type of a parameter without a name keeps its words if there is nothing else and no qualifier
at its end, or if it is the type that stands for all that is not understood. -/
theorem keeps_iff (nameless : IsNameless ks) (noMark : afterMark ks = none)
    (spelled : SpellsNames text ks) (index : Nat) :
    (names (typeFront ks)).Sublist
        (typeNames ((ArgumentShape.ofKinds ks).argument text index).type) ↔
      typeFront ks = ks ∧ ¬ EndsQualified ks ∨ names (typeFront ks) = ["void"] := by
  by_cases whole : ks.all (·.isTypePart) = true
  · have nonempty : ks ≠ [] := by
      rintro rfl
      cases nameless.starts
    rw [ofKinds_run nonempty whole, typeFront_eq_self_iff.mpr whole,
      nameless.run_keeps_iff spelled whole, and_iff_right rfl]
    refine (or_iff_left_of_imp ?_).symm
    rintro single ⟨lead, name, rfl, -, -, type⟩
    refine nameless.names_ne_void ?_ name single
    rintro rfl
    cases type
  · have more : typeFront ks ≠ ks := fun same => whole (typeFront_eq_self_iff.mp same)
    rw [nameless.suffix_keeps_iff noMark spelled (by simpa using whole),
      or_iff_right fun kept => more kept.1]

end IsNameless

namespace Declaration

theorem HasForm.chunk_infix {ts run args chunk : List Token} {name : String}
    (form : HasForm ts run name args) (member : chunk ∈ chunks args) : chunk <:+: ts := by
  obtain ⟨marks, close, rest, rfl, -⟩ := form.whole
  refine (infix_of_mem_chunks member).trans ⟨run ++ marks, close :: rest, ?_⟩
  simp only [List.append_assoc]

/-- The text from the first token of a chunk on has the names of the words and stars that it is cut
out for. -/
theorem spellsNames_textBetween {source : List Char} {line : Nat} {first : Token} {r : List Token}
    (inside : first :: r <:+: (Token.scan source line).tokens) :
    SpellsNames (fun n => textBetween source first (((first :: r).take n).getLastD first))
      ((first :: r).map (·.kind)) := by
  intro n pos types
  dsimp only
  obtain ⟨before, behind, whole⟩ := inside
  have run : (Token.scan source line).tokens =
      before ++ ((first :: r).take n ++ ((first :: r).drop n ++ behind)) := by
    rw [← List.append_assoc (List.take _ _), List.take_append_drop, ← whole, List.append_assoc]
  rw [← List.map_take] at types ⊢
  have head : ((first :: r).take n).head? = some first := by
    rw [List.head?_take, if_neg pos, List.head?_cons]
  generalize (first :: r).take n = front at *
  have parts : ∀ t ∈ front, t.kind.isTypePart = true := by
    simpa [List.all_map] using types
  have ne : front ≠ [] := by
    rintro rfl
    cases head
  have final := List.getLast?_eq_some_getLast ne
  obtain ⟨kinds, starred⟩ := kinds_textBetween run parts head final
  rw [List.getLastD_eq_getLast?, final, Option.getD_some]
  refine ⟨congrArg names kinds, (congrArg names starred).trans ?_⟩
  rw [names_append]
  exact List.append_nil _

/-- Of a declaration that is read, a parameter that is no pointer to a function is named by a type
word exactly if it is an array whose last word before the brackets is that word. The type of one
without a name has all its words unless there is more than words and stars or the last word is a
qualifier behind a type; then only `void` keeps its word. -/
theorem typeWords_iff {source text : String} {line : Nat} {d : Declaration}
    (done : read source text line = .ok d) : ∃ run name args cut,
      HasForm (Token.scan source.toList line).tokens run name args ∧ IsCut args cut ∧
      d.args.length = (cut.filter (·.map (·.kind) ≠ [.ident "void"])).length ∧
      ∀ (i : Nat) (chunk : List Token) (ks : List Kind),
        (cut.filter (·.map (·.kind) ≠ [.ident "void"]))[i]? = some chunk →
        chunk.map (·.kind) = ks → ∃ a : Argument, d.args[i]? = some a ∧
          (¬ [.openParen, .star] <:+: ks →
            (∀ word ∈ typeWords, a.name = word ↔ IsArrayOf word ks) ∧
            (IsNameless ks → ((names (typeFront ks)).Sublist (typeNames a.type) ↔
              typeFront ks = ks ∧ ¬ EndsQualified ks ∨ names (typeFront ks) = ["void"]))) := by
  obtain ⟨s', taken⟩ := read_eq_ok_iff.mp done
  obtain ⟨run, name, args, first, last, form, -, -, same⟩ := exists_form taken
  have listed : d.args = arguments source.toList args := by
    rw [same]
  rw [arguments_chunks] at listed
  refine ⟨run, name, args, chunks args, form, isCut_chunks form.matched, by simp [listed], ?_⟩
  rintro i chunk ks found rfl
  have here : d.args[i]? = some (argument source.toList i chunk) := by
    rw [listed, List.getElem?_mapIdx, found, Option.map_some]
  refine ⟨_, here, fun noPointer => ?_⟩
  have noMark := afterMark_eq_none_iff.mpr noPointer
  cases chunk with
  | nil =>
    refine ⟨fun word isWord => name_eq_typeWord_iff noMark (fun _ => "void*") i isWord, ?_⟩
    exact fun nameless => nomatch nameless.starts
  | cons first r =>
    rw [argument_shape fun _ _ => rfl]
    refine ⟨fun word isWord => name_eq_typeWord_iff noMark _ i isWord, fun nameless => ?_⟩
    have listedHere := (List.mem_filter.mp (List.mem_of_getElem? found)).1
    exact nameless.keeps_iff noMark
      (spellsNames_textBetween (form.chunk_infix listedHere)) i

/-- A function with a type of two words and no name, and a name behind such a type. -/
def sampleRead : Declaration where
  name := "pfnRead"
  returnType := "void"
  args := [.fixed ⟨"value0", "unsigned char", none⟩, .fixed ⟨"count", "unsigned long", none⟩]
  text := "void (*pfnRead)(unsigned char, unsigned long count);"
  line := 1

theorem typeWords_read : read sampleRead.text sampleRead.text 1 = .ok sampleRead ∧
    (∀ a ∈ sampleRead.args, a.name ∉ typeWords) ∧ ∃ run name args cut,
      HasForm (Token.scan sampleRead.text.toList 1).tokens run name args ∧ IsCut args cut ∧
        (cut.filter (·.map (·.kind) ≠ [.ident "void"])).length = 2 := by
  have done : read sampleRead.text sampleRead.text 1 = .ok sampleRead := by decide +kernel
  obtain ⟨run, name, args, cut, form, isCut, length, -⟩ := typeWords_iff done
  exact ⟨done, by decide, run, name, args, cut, form, isCut, length.symm⟩

/-- A function with an array that has no name. -/
def sampleFill : Declaration where
  name := "pfnFill"
  returnType := "void"
  args := [.fixed ⟨"char", "unsigned*", some 16⟩]
  text := "void (*pfnFill)(unsigned char[16]);"
  line := 1

/-- The array is named `char`, and the type of its elements loses the word. -/
theorem typeWord_named_fill : read sampleFill.text sampleFill.text 1 = .ok sampleFill ∧
    (∃ run args cut, HasForm (Token.scan sampleFill.text.toList 1).tokens run "pfnFill" args ∧
      IsCut args cut ∧ cut.map (fun chunk => names (chunk.map (·.kind))) = [["unsigned", "char"]]) ∧
    ∃ a ∈ sampleFill.args, a.name ∈ typeWords ∧ typeNames a.type = ["unsigned"] := by
  let tokens := (Token.scan sampleFill.text.toList 1).tokens
  let args := (tokens.drop 6).take 5
  have form : HasForm tokens (tokens.take 1) "pfnFill" args := {
    whole := by
      refine ⟨(tokens.drop 1).take 5, tokens.get ⟨11, by decide +kernel⟩, tokens.drop 12, ?_⟩
      and_intros <;> decide +kernel
    nonempty := by decide +kernel
    types := by decide +kernel
    matched := isBalanced_iff.mp (by decide +kernel) }
  refine ⟨by decide +kernel, ⟨_, _, _, form, isCut_chunks form.matched, by decide +kernel⟩, ?_⟩
  exact ⟨_, List.mem_cons_self, by decide, by decide +kernel⟩

end Declaration

end ScriptGlue
