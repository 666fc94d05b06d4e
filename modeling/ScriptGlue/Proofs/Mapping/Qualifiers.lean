import ScriptGlue.Proofs.Mapping.Counted

/-!
# The place of a qualifier

`const T` and `T const` mean the same in front of stars. Rows by base name do not tell them apart,
but two other tests do: one pointer to characters is listed by its full spelling, and whether a
structure is constant is asked of the words of a spelling, where the stars stick to the last one. So
both forms convert alike unless `T` is `char` behind one star or a structure whose constants are
cast.
-/
namespace ScriptGlue

namespace Text

variable {p q : Char → Bool}

theorem span_congr {s : List Char} (same : ∀ c ∈ s, p c = q c) :
    s.takeWhile p = s.takeWhile q ∧ s.dropWhile p = s.dropWhile q := by
  induction s with
  | nil => exact ⟨rfl, rfl⟩
  | cons c r ih =>
    obtain ⟨taken, dropped⟩ := ih fun d member => same d (List.mem_cons_of_mem c member)
    rw [List.takeWhile_cons, List.takeWhile_cons, List.dropWhile_cons, List.dropWhile_cons,
      same c List.mem_cons_self, taken, dropped]
    exact ⟨rfl, rfl⟩

/-- Runs depend only on which of the characters at hand separate. -/
theorem runs_congr {s : List Char} (same : ∀ c ∈ s, p c = q c) : runs p s = runs q s := by
  fun_induction runs p s with
  | case1 s empty =>
    rw [(span_congr same).2] at empty
    rw [runs_eq_nil_iff.mpr empty]
  | case2 s c r whole ih =>
    have inside : ∀ d ∈ r, p d = q d := by
      intro d member
      refine same d ((List.dropWhile_suffix p).subset ?_)
      rw [whole]
      exact List.mem_cons_of_mem c member
    obtain ⟨taken, dropped⟩ := span_congr (p := (!p ·)) (q := (!q ·)) (s := r)
      fun d member => congrArg not (inside d member)
    rw [(span_congr same).2] at whole
    rw [runs_of_dropWhile whole, taken, dropped, ← dropped,
      ih fun d member => inside d ((List.dropWhile_suffix _).subset member)]

/-- Two words with a space between them. -/
theorem words_pair {a b : String} (neA : a.toList ≠ [])
    (solidA : ∀ c ∈ a.toList, isBlank c = false) (neB : b.toList ≠ [])
    (solidB : ∀ c ∈ b.toList, isBlank c = false) :
    words (a ++ " " ++ b) = [a, b] := by
  have spelled : (a ++ " " ++ b).toList = a.toList ++ ' ' :: b.toList := by
    simp
  have last : runs isBlank b.toList = [b.toList] := by
    have whole := runs_word (s := []) neB solidB (by simp)
    rwa [List.append_nil, runs_eq_nil_iff.mpr List.dropWhile_nil] at whole
  have space : isBlank ' ' = true := by decide
  rw [words, spelled, runs_word neA solidA (by simpa using space), runs_separator space, last]
  simp

end Text

namespace Mapping

variable {type : String}

/-- Where all words of a type are identifiers, `const` is told by them. -/
theorem isConstType_iff (words : ∀ w ∈ typeWords type, isIdentifier w = true) :
    isConstType type = true ↔ "const" ∈ typeWords type := by
  have same : ∀ c ∈ type.toList, (!Text.isIdentRest c) = partsWords c := by
    intro c member
    cases parts : partsWords c with
    | true =>
      rw [Bool.not_eq_true', Bool.eq_false_iff]
      intro rest
      rw [partsWords, Bool.or_eq_true, beq_iff_eq, Text.isBlank_of_isIdentRest rest] at parts
      rcases parts with rfl | blank
      · exact absurd rest (by decide)
      · cases blank
    | false =>
      obtain ⟨w, run, inside⟩ := Text.exists_run_of_mem member parts
      have valid := words _ (List.mem_map_of_mem run)
      rw [isIdentRest_of_mem valid (by rwa [String.toList_ofList])]
      rfl
  rw [isConstType, List.contains_iff_mem, Text.runs_congr same, typeWords]
  constructor
  · intro run
    exact List.mem_map.mpr ⟨_, run, String.ofList_toList⟩
  · intro word
    obtain ⟨w, run, spelled⟩ := List.mem_map.mp word
    rw [← spelled, String.toList_ofList]
    exact run

theorem isIdentifier_const : isIdentifier "const" = true := by decide +kernel

/-- What words that are identifiers are made of does not part them. -/
theorem solid_of_isIdentifier {w : String} (valid : isIdentifier w = true) :
    w.toList ≠ [] ∧ ∀ c ∈ w.toList, partsWords c = false := by
  refine ⟨fun empty => ?_, fun c member => ?_⟩
  · simp [isIdentifier, empty] at valid
  · have rest := isIdentRest_of_mem valid member
    rw [partsWords, Text.isBlank_of_isIdentRest rest, Bool.or_false, beq_eq_false_iff_ne]
    rintro rfl
    exact absurd rest (by decide)

/-- What an expression for a type without a row says about it. -/
def unknownRemark (type : String) : String :=
  if (row? type).isNone then s!" /* unknown type: {type} */" else ""

/-- Two types convert alike, but for remarks that quote them. -/
structure ConvertsAlike (a b : String) : Prop where
  script_source : ∀ value length,
    (toScript a value length).value.source = (toScript b value length).value.source
  native_source : ∀ value name,
    (toNative a value name).value.source = (toNative b value name).value.source
  declared : declaredType a = declaredType b
  const : isConstType a = isConstType b
  script_expr : ∀ value length, '{' ∉ value.toList → ∃ core,
    (toScript a value length).value.expr = core ++ unknownRemark a ∧
      (toScript b value length).value.expr = core ++ unknownRemark b

/-! ### Expressions without the type -/

/-- A mark that a text does not have is not replaced, if no mark of the text can be taken for it. -/
theorem replaceChars_of_hasOnly {marks : List String} {pat new s : List Char}
    (other : ∀ m ∈ marks, ¬ '{' :: pat <+: m.toList ∧ ¬ m.toList <+: '{' :: pat)
    (only : hasOnly marks s = true) : Text.replaceChars ('{' :: pat) new s = s := by
  induction s with
  | nil => rw [Text.replaceChars]
  | cons c r ih =>
    rw [hasOnly, Bool.and_eq_true, Bool.or_eq_true, bne_iff_ne, List.any_eq_true] at only
    have absent : ¬ ('{' :: pat) <+: c :: r := by
      intro starts
      obtain ⟨rfl, -⟩ := List.cons_prefix_cons.mp starts
      obtain ⟨m, member, here⟩ := only.1.resolve_left fun differs => differs rfl
      rcases List.prefix_or_prefix_of_prefix starts (List.isPrefixOf_iff_prefix.mp here) with
        inside | around
      · exact (other m member).1 inside
      · exact (other m member).2 around
    rw [Text.replaceChars, if_neg (fun found => absent (List.isPrefixOf_iff_prefix.mp found.2)),
      ih only.2]

/-- A mark that a text does not have is replaced nowhere. -/
theorem replace_of_hasOnly {marks : List String} {s mark new : String} {pat : List Char}
    (spelled : mark.toList = '{' :: pat)
    (other : ∀ m ∈ marks, ¬ '{' :: pat <+: m.toList ∧ ¬ m.toList <+: '{' :: pat)
    (only : hasOnly marks s.toList = true) : Text.replace s mark new = s := by
  rw [Text.replace, spelled, replaceChars_of_hasOnly other only, String.ofList_toList]

/-- Expressions for single pointers do not mention the type. -/
theorem pointerRows_typeless : ∀ pair ∈ pointerRows,
    hasOnly ["{v}", "{len}"] pair.2.toScript.toList = true := by
  simp only [pointerRows, List.forall_mem_cons, List.not_mem_nil, false_implies, implies_true,
    and_true]
  and_intros
  all_goals exact hasOnly_spelled rfl rfl

/-- An expression that does not ask for the type comes out the same for every type. -/
theorem fill_typeless {template value : String} (plain : '{' ∉ value.toList)
    (only : hasOnly ["{v}", "{len}"] template.toList = true) (a b : String)
    (length : Option String) :
    fill template value "" a length = fill template value "" b length := by
  have valued := hasOnly_replace (by decide) plain only
  have unnamed : hasOnly ["{n}", "{len}"] (Text.replace template "{v}" value).toList = true :=
    hasOnly_mono (by simp) valued
  have named := hasOnly_replace (by decide) (by decide : '{' ∉ "".toList) unnamed
  have marks : "{t}".toList = ['{', 't', '}'] := rfl
  simp only [fill]
  rw [replace_of_hasOnly marks (by decide) named, replace_of_hasOnly marks (by decide) named]

/-! ### Words in both orders -/

section Pair

variable {a b : String} {stars : Nat} (validA : isIdentifier a = true)
  (validB : isIdentifier b = true)
include validA validB

theorem solid_pair : ∀ w ∈ [a, b], w.toList ≠ [] ∧ ∀ c ∈ w.toList, partsWords c = false := by
  intro w member
  rcases List.mem_pair.mp member with rfl | rfl
  · exact solid_of_isIdentifier validA
  · exact solid_of_isIdentifier validB

/-- What is looked up of a type that is spelled by two words and stars. -/
theorem parts_of_pair (spelled : canonical type = starred [a, b] stars) :
    typeWords type = [a, b] ∧ pointerDepth type = stars := by
  have solid := solid_pair validA validB
  rw [← typeWords_canonical, ← pointerDepth_canonical, spelled]
  exact ⟨typeWords_starred solid stars, pointerDepth_starred solid stars⟩

/-- The blanks of a spelling part it at the space: the stars stick to the second word. -/
theorem words_starred : Text.words (starred [a, b] stars) = [a, starred [b] stars] := by
  have solidA := solid_of_isIdentifier validA
  have solidB := solid_of_isIdentifier validB
  have unblank {w : String} (parts : ∀ c ∈ w.toList, partsWords c = false) :
      ∀ c ∈ w.toList, Text.isBlank c = false := fun c member =>
    (Bool.or_eq_false_iff.mp (parts c member)).2
  have glued : ∀ c ∈ (starred [b] stars).toList, Text.isBlank c = false := by
    intro c member
    rw [toList_starred, String.intercalate_singleton] at member
    rcases List.mem_append.mp member with word | star
    · exact unblank solidB.2 c word
    · rw [List.eq_of_mem_replicate star]
      decide
  have spelled : starred [a, b] stars = a ++ " " ++ starred [b] stars := by
    rw [starred, starred, String.intercalate_cons_cons, String.append_assoc]
  rw [spelled]
  refine Text.words_pair solidA.1 (unblank solidA.2) ?_ glued
  rw [toList_starred, String.intercalate_singleton]
  exact List.append_ne_nil_of_left_ne_nil solidB.1 _

/-- So a constant is told by a word of its own only where `const` comes first. -/
theorem const_mem_words (some_stars : 1 ≤ stars) :
    (Text.words (starred [a, b] stars)).contains "const" = true ↔ a = "const" := by
  have glued : starred [b] stars ≠ "const" := by
    intro same
    have star : '*' ∈ (starred [b] stars).toList := by
      rw [toList_starred]
      refine List.mem_append_right _ (List.mem_replicate.mpr ⟨by omega, rfl⟩)
    rw [same] at star
    exact absurd star (by decide)
  rw [words_starred validA validB, List.contains_iff_mem, List.mem_pair]
  exact ⟨fun here => (here.resolve_right (Ne.symm glued)).symm, fun same => .inl same.symm⟩

theorem isConstType_of_pair (words : typeWords type = [a, b]) (const : "const" ∈ [a, b]) :
    isConstType type = true := by
  refine (isConstType_iff fun w member => ?_).mpr (words ▸ const)
  rw [words] at member
  rcases List.mem_pair.mp member with rfl | rfl
  · exact validA
  · exact validB

end Pair

/-- The one pointer to a constant that is listed by two words. -/
theorem basicRows_const : ∀ pair ∈ basicRows, "const" ∈ typeWords pair.1 →
    (typeWords pair.1).length = 2 → pair.1 = "const char*" := by
  decide +kernel

theorem toScript_source (type value : String) (length : Option String) :
    (toScript type value length).value.source = sourceOf (row? type) := by
  cases found : row? type with
  | none => exact (toScript_unknown found value length).1
  | some row =>
    rw [toScript_eq found]
    rfl

theorem toNative_source (type value name : String) :
    (toNative type value name).value.source = sourceOf (row? type) := by
  cases found : row? type with
  | none => exact toNative_unknown found value name
  | some row =>
    rw [toNative_eq found]
    rfl

/-- Whether a constant is seen makes a difference to a structure exactly if it is cast. -/
theorem wrap_eq_iff {a b : String} (seen : (Text.words a).contains "const" = true)
    (unseen : (Text.words b).contains "const" = false) (record : RecordRow) (value : String) :
    wrap record a value = wrap record b value ↔ record.constCast = none := by
  unfold wrap
  rw [seen, unseen]
  cases record.constCast with
  | none => exact iff_of_true rfl rfl
  | some cast =>
    refine iff_of_false (fun same => ?_) (Option.some_ne_none cast)
    have lengths := congrArg String.length same
    simp [toString] at lengths

/-- What converts a structure is not looked up by a qualifier. -/
theorem ne_const_of_record {word : String} {record : RecordRow}
    (words : typeWords type = [word, "const"]) (found : row? type = some (.record record)) :
    word ≠ "const" := by
  rintro rfl
  have named : ∀ pair ∈ recordRows, pair.1 ≠ "" := by decide
  have base : baseName type = "" := by
    rw [baseName, words]
    rfl
  rcases row?_cases found with ⟨_, -, same⟩ | ⟨other, member, -⟩ | ⟨_, -, same⟩
  · cases same
  · exact named _ member base
  · cases same

/-- The expression for a type without a row: what the value is taken for, and the remark. -/
theorem toScript_unmapped (found : row? type = none) (value : String) (length : Option String) :
    (toScript type value length).value.expr =
      s!"v8::External::New(isolate, (void*){value})" ++ unknownRemark type := by
  have remark : unknownRemark type = s!" /* unknown type: {type} */" := by
    rw [unknownRemark, found]
    rfl
  unfold toScript
  rw [found, remark]
  apply String.toList_injective
  simp [toString]

theorem unknownRemark_mapped {row : Row} (found : row? type = some row) :
    unknownRemark type = "" := by
  rw [unknownRemark, found]
  rfl

/-- Pointers without a row are memory of some shape. -/
theorem declaredType_of_pointer (pointer : 0 < pointerDepth type) : declaredType type =
    match row? type with
    | some row => row.declared
    | none => opaqueMemory := by
  cases found : row? type with
  | some row => exact declaredType_eq found
  | none =>
    have some_value : canonical type ≠ "void" := by
      intro void
      rw [← pointerDepth_canonical, void] at pointer
      exact absurd pointer (by decide)
    rw [declaredType_unknown found, if_neg some_value, if_pos (List.count_pos_iff.mp pointer)]

section Orders

variable {word before behind : String} {stars : Nat} (valid : isIdentifier word = true)
  (some_stars : 1 ≤ stars) (first : canonical before = starred ["const", word] stars)
  (last : canonical behind = starred [word, "const"] stars)

include valid last in
/-- With `const` behind the word, nothing is listed. -/
theorem unlisted_behind : basicRows.lookup (canonical behind) = none := by
  refine (lookup_none_iff distinct_basicRows).mpr fun row member => ?_
  obtain ⟨words, -⟩ := parts_of_pair valid isIdentifier_const last
  rw [← typeWords_canonical] at words
  have listed := basicRows_const _ member (by simp [words]) (by simp [words])
  have words' : typeWords "const char*" = ["const", "char"] := by decide +kernel
  rw [← show canonical behind = "const char*" from listed, words] at words'
  simp at words'

include valid first in
/-- In front of it, one pointer is. -/
theorem unlisted_before_iff :
    basicRows.lookup (canonical before) = none ↔ ¬ (word = "char" ∧ stars = 1) := by
  constructor
  · rintro unlisted ⟨rfl, rfl⟩
    have listed : basicRows.lookup (starred ["const", "char"] 1) ≠ none := by decide +kernel
    exact listed (first ▸ unlisted)
  · intro other
    refine (lookup_none_iff distinct_basicRows).mpr fun row member => ?_
    obtain ⟨words, depth⟩ := parts_of_pair isIdentifier_const valid first
    rw [← typeWords_canonical] at words
    rw [← pointerDepth_canonical] at depth
    have listed := basicRows_const _ member (by simp [words]) (by simp [words])
    have spelled : typeWords "const char*" = ["const", "char"] ∧
        pointerDepth "const char*" = 1 := by decide +kernel
    rw [← show canonical before = "const char*" from listed, words, depth] at spelled
    exact other (by simpa using spelled)

include valid first last in
/-- Apart from it, one row maps both. -/
theorem row?_orders (other : ¬ (word = "char" ∧ stars = 1)) : row? before = row? behind := by
  have listed := (unlisted_before_iff valid first).mpr other
  have listed' := unlisted_behind valid last
  obtain ⟨words, depth⟩ := parts_of_pair isIdentifier_const valid first
  obtain ⟨words', depth'⟩ := parts_of_pair valid isIdentifier_const last
  have base : baseName before = baseName behind := by
    rw [baseName, baseName, words, words']
    simp [List.filter_cons]
  rw [row?, row?, listed, listed', depth, depth', base]

include valid some_stars first last

/-- Structures convert alike if no constant is cast. -/
theorem wrap_orders {record : RecordRow} (found : row? behind = some (.record record))
    (value : String) :
    wrap record (canonical before) value = wrap record (canonical behind) value ↔
      record.constCast = none := by
  obtain ⟨words, -⟩ := parts_of_pair valid isIdentifier_const last
  have other := ne_const_of_record words found
  have seen := (const_mem_words isIdentifier_const valid some_stars).mpr rfl
  have unseen := mt (const_mem_words valid isIdentifier_const some_stars).mp other
  rw [first, last]
  exact wrap_eq_iff seen (Bool.eq_false_iff.mpr unseen) record value

/-- One row gives one expression, unless a structure is cast. -/
theorem scriptExpr_orders {row : Row} (found : row? before = some row)
    (found' : row? behind = some row)
    (uncast : ∀ record, row = .record record → record.constCast = none) {value : String}
    (plain : '{' ∉ value.toList) (length : Option String) :
    row.scriptExpr (canonical before) value length =
      row.scriptExpr (canonical behind) value length := by
  cases row with
  | basic row =>
    have unlisted := (lookup_none_iff distinct_basicRows).mp (unlisted_behind valid last)
    rcases row?_cases found' with ⟨other, member, -⟩ | ⟨_, -, same⟩ | ⟨_, -, same⟩
    · exact absurd member (unlisted other)
    · cases same
    · cases same
  | record record =>
    exact (wrap_orders valid some_stars first last found' value).mpr (uncast record rfl)
  | pointer pointer =>
    obtain ⟨key, member⟩ := mem_pointerRows found
    exact fill_typeless plain (pointerRows_typeless _ member) _ _ _

/-- The pointer to characters is listed with `const` in front alone. -/
theorem not_alike_char (char : word = "char" ∧ stars = 1) : ¬ ConvertsAlike before behind := by
  intro alike
  have listed := mt (unlisted_before_iff valid first).mp (not_not_intro char)
  have unlisted : row? behind = none := by
    obtain ⟨rfl, rfl⟩ := char
    have spelled : canonical behind = canonical "char const*" := by
      rw [last]
      decide +kernel
    rw [row?_congr spelled]
    decide +kernel
  have source := alike.native_source "" ""
  obtain ⟨row, here⟩ := Option.ne_none_iff_exists'.mp listed
  have found : row? before = some (.basic row) := by
    rw [row?, here]
  rw [toNative_source, toNative_source, unlisted, found] at source
  exact source_ne_unknown (.basic row) source

/-- `const T` and `T const` convert alike behind stars but for one pointer to characters and for
structures whose constants are cast. -/
theorem convertsAlike_iff : ConvertsAlike before behind ↔ ¬ (word = "char" ∧ stars = 1) ∧
    ∀ record, row? before = some (.record record) → record.constCast = none := by
  obtain ⟨words, depth⟩ := parts_of_pair isIdentifier_const valid first
  obtain ⟨words', depth'⟩ := parts_of_pair valid isIdentifier_const last
  constructor
  · intro alike
    have other : ¬ (word = "char" ∧ stars = 1) := fun char =>
      not_alike_char valid some_stars first last char alike
    refine ⟨other, fun record found => ?_⟩
    have found' := (row?_orders valid first last other).symm.trans found
    obtain ⟨core, here, there⟩ := alike.script_expr "" none (by decide)
    rw [toScript_eq found, unknownRemark_mapped found] at here
    rw [toScript_eq found', unknownRemark_mapped found'] at there
    exact (wrap_orders valid some_stars first last found' "").mp (here.trans there.symm)
  · rintro ⟨other, uncast⟩
    have same := row?_orders valid first last other
    exact {
      script_source := fun value length => by rw [toScript_source, toScript_source, same]
      native_source := fun value name => by rw [toNative_source, toNative_source, same]
      declared := by
        rw [declaredType_of_pointer (depth ▸ some_stars),
          declaredType_of_pointer (depth' ▸ some_stars), same]
      const := by
        rw [isConstType_of_pair isIdentifier_const valid words (by simp),
          isConstType_of_pair valid isIdentifier_const words' (by simp)]
      script_expr := by
        intro value length plain
        cases found : row? before with
        | none =>
          exact ⟨_, toScript_unmapped found value length,
            toScript_unmapped (same.symm.trans found) value length⟩
        | some row =>
          have found' := same.symm.trans found
          have exprs := scriptExpr_orders valid some_stars first last found found'
            (fun record record_row => uncast record (record_row ▸ found)) plain length
          rw [toScript_eq found, toScript_eq found', unknownRemark_mapped found,
            unknownRemark_mapped found', exprs]
          exact ⟨_, String.append_empty.symm, String.append_empty.symm⟩ }

end Orders

/-- Entities are wrapped without a cast, so both orders convert alike. -/
theorem convertsAlike_entities : canonical "const edict_t *" = starred ["const", "edict_t"] 1 ∧
    canonical "edict_t const *" = starred ["edict_t", "const"] 1 ∧
    ConvertsAlike "const edict_t *" "edict_t const *" := by
  have first : canonical "const edict_t *" = starred ["const", "edict_t"] 1 := by decide +kernel
  have last : canonical "edict_t const *" = starred ["edict_t", "const"] 1 := by decide +kernel
  have found : row? "const edict_t *" = some (.record ⟨"Entity", "Entity", none⟩) := by
    decide +kernel
  refine ⟨first, last,
    (convertsAlike_iff (by decide +kernel) (by decide) first last).mpr ⟨by decide, ?_⟩⟩
  intro record same
  rw [found, Option.some.injEq, Row.record.injEq] at same
  rw [← same]

/-- Variables of entities are cast, but not where `const` comes last. -/
theorem not_alike_variables : canonical "const entvars_t *" = starred ["const", "entvars_t"] 1 ∧
    canonical "entvars_t const *" = starred ["entvars_t", "const"] 1 ∧
    ¬ ConvertsAlike "const entvars_t *" "entvars_t const *" := by
  refine ⟨by decide +kernel, by decide +kernel, fun alike => ?_⟩
  obtain ⟨core, here, there⟩ := alike.script_expr "v" none (by decide)
  have mapped : unknownRemark "const entvars_t *" = "" ∧
      unknownRemark "entvars_t const *" = "" := by decide +kernel
  have cast : (toScript "const entvars_t *" "v" none).value.expr =
      "structures::wrapEntvars(isolate, (entvars_t*)v)" := by decide +kernel
  have uncast : (toScript "entvars_t const *" "v" none).value.expr =
      "structures::wrapEntvars(isolate, v)" := by decide +kernel
  rw [cast, mapped.1, String.append_empty] at here
  rw [uncast, mapped.2, String.append_empty, ← here] at there
  exact absurd there (by decide)

end Mapping

end ScriptGlue
