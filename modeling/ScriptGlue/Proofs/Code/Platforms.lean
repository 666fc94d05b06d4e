import ScriptGlue.Proofs.Code.Nesting
import ScriptGlue.Proofs.Text.Search
import ScriptGlue.Proofs.Text.Squeeze

/-!
# Definitions by platform

Native code may be written once for one platform and once for the others. Each platform keeps its
own lines, and a function is defined on it as often as one of these lines opens its definition.
-/
namespace ScriptGlue.Code

/-- The platform that the lines behind a line are meant for: all of them, or Windows, or all others.
The conditions do not nest. -/
def platformAfter (now : Option Bool) (line : String) : Option Bool :=
  if Text.trim line = "#ifdef _WIN32" then some true
  else if Text.trim line = "#else" then some false
  else if Text.trim line = "#endif" then none
  else now

/-- The lines that tell the platforms apart. -/
def platformMarks : List String := ["#ifdef _WIN32", "#else", "#endif"]

def keptLines (windows : Bool) : Option Bool → List String → List String
  | _, [] => []
  | now, l :: r =>
    (if now = some (!windows) then [] else [l]) ++ keptLines windows (platformAfter now l) r

def resultTypes : List String := ["void", "int", "float", "void*", "const char*"]

/-- Whether a line opens the definition of a function. -/
def opensDefinition (symbol line : String) : Bool :=
  resultTypes.any fun type =>
    match Text.dropLead? (type ++ " " ++ symbol ++ "(") line with
    | some rest => !rest.toList.contains '(' && ") \x7b".toList.isSuffixOf rest.toList
    | none => false

def definitions (windows : Bool) (symbol text : String) : Nat :=
  (keptLines windows none (Text.lines text)).countP (opensDefinition symbol)

/-! ### Platforms -/

section

variable {windows : Bool}

/-- The platform behind some lines. -/
def platformBehind (now : Option Bool) (ls : List String) : Option Bool :=
  ls.foldl platformAfter now

theorem platformBehind_append (now : Option Bool) (a b : List String) :
    platformBehind now (a ++ b) = platformBehind (platformBehind now a) b := List.foldl_append

theorem keptLines_append (now : Option Bool) (a b : List String) :
    keptLines windows now (a ++ b) =
      keptLines windows now a ++ keptLines windows (platformBehind now a) b := by
  induction a generalizing now with
  | nil => rfl
  | cons l r ih => rw [List.cons_append, keptLines, keptLines, ih, List.append_assoc]; rfl

theorem mem_of_mem_keptLines {now : Option Bool} {ls : List String} {l : String}
    (kept : l ∈ keptLines windows now ls) : l ∈ ls := by
  induction ls generalizing now with
  | nil => exact kept
  | cons m r ih =>
    rw [keptLines, List.mem_append] at kept
    rcases kept with here | later
    · split at here
      · exact absurd here List.not_mem_nil
      · exact List.mem_singleton.mp here ▸ List.mem_cons_self
    · exact List.mem_cons_of_mem m (ih later)

/-- Lines that open no definition do not count. -/
theorem countP_keptLines_eq_zero {opens : String → Bool} {now : Option Bool} {ls : List String}
    (none : ∀ l ∈ ls, opens l = false) : (keptLines windows now ls).countP opens = 0 := by
  rw [List.countP_eq_zero]
  intro l kept
  rw [none l (mem_of_mem_keptLines kept)]
  exact Bool.false_ne_true

end

/-! ### Lines that leave the platform as it is -/

theorem trimChars_isPrefix (s : List Char) : Text.trimChars s <+: s.dropWhile Text.isBlank := by
  have part := List.reverse_prefix.mpr
    (List.dropWhile_suffix (l := (s.dropWhile Text.isBlank).reverse) Text.isBlank)
  rwa [List.reverse_reverse] at part

theorem platformAfter_eq_self {text : String} (other : ∀ mark ∈ platformMarks,
    ¬ mark.toList <+: text.toList.dropWhile Text.isBlank) (now : Option Bool) :
    platformAfter now text = now := by
  have differs : ∀ mark ∈ platformMarks, Text.trim text ≠ mark := by
    intro mark known same
    refine other mark known ?_
    rw [← same, Text.trim, String.toList_ofList]
    exact trimChars_isPrefix text.toList
  rw [platformAfter, if_neg (differs _ (by simp [platformMarks])),
    if_neg (differs _ (by simp [platformMarks])), if_neg (differs _ (by simp [platformMarks]))]

/-- What starts with something else than a mark for the preprocessor is no such mark. -/
theorem platformAfter_append {start : String} (solid : ∃ c ∈ start.toList.head?,
    Text.isBlank c = false) (apart : ∀ mark ∈ platformMarks, ¬ mark.toList <+: start.toList ∧
      ¬ start.toList <+: mark.toList) (rest : String) (now : Option Bool) :
    platformAfter now (start ++ rest) = now := by
  refine platformAfter_eq_self (fun mark known begins => ?_) now
  obtain ⟨c, first, solid⟩ := solid
  obtain ⟨r, chars⟩ := List.head?_eq_some_iff.mp first
  rw [String.toList_append, chars, List.cons_append, List.dropWhile_cons_of_neg (by simp [solid]),
    ← List.cons_append, ← chars] at begins
  rcases List.prefix_or_prefix_of_prefix begins (List.prefix_append _ _) with shorter | longer
  · exact (apart mark known).1 shorter
  · exact (apart mark known).2 longer

theorem platformAfter_of_not_mem {text : String} (plain : '#' ∉ text.toList) (now : Option Bool) :
    platformAfter now text = now := by
  have starts : ∀ mark ∈ platformMarks, '#' ∈ mark.toList := by decide
  exact platformAfter_eq_self (fun mark known begins => plain
    ((List.dropWhile_suffix Text.isBlank).subset (begins.subset (starts mark known)))) now

/-- Nothing that the preprocessor reads: the text does not start with its mark. -/
def IsQuiet (text : String) : Prop := ∀ c ∈ text.toList.head?, c ≠ '#' ∧ Text.isBlank c = false

instance (text : String) : Decidable (IsQuiet text) :=
  inferInstanceAs (Decidable (∀ c ∈ text.toList.head?, c ≠ '#' ∧ Text.isBlank c = false))

theorem IsQuiet.append {start : String} (quiet : IsQuiet start) (filled : start ≠ "")
    (rest : String) : IsQuiet (start ++ rest) := by
  obtain ⟨c, r, chars⟩ : ∃ c r, start.toList = c :: r :=
    List.exists_cons_of_ne_nil (by simpa using filled)
  rw [IsQuiet, chars] at quiet
  rw [IsQuiet, String.toList_append, chars]
  exact quiet

theorem platformAfter_quiet {text : String} (quiet : IsQuiet text) (now : Option Bool) :
    platformAfter now text = now := by
  have starts : ∀ mark ∈ platformMarks, mark.toList.head? = some '#' := by decide
  refine platformAfter_eq_self (fun mark known begins => ?_) now
  obtain ⟨rest, whole⟩ := begins
  have first : (text.toList.dropWhile Text.isBlank).head? = some '#' := by
    rw [← whole, List.head?_append, starts mark known]
    rfl
  cases chars : text.toList with
  | nil =>
    rw [chars] at first
    cases first
  | cons c r =>
    obtain ⟨plain, solid⟩ := quiet c (by rw [chars]; rfl)
    rw [chars, List.dropWhile_cons_of_neg (by simp [solid])] at first
    exact plain (Option.some.inj first)

/-! ### Layouts by platform -/

namespace Layout

theorem isBlank_units {unit : String} (blank : ∀ c ∈ unit.toList, Text.isBlank c = true)
    (depth : Nat) : ∀ c ∈ (units unit depth).toList, Text.isBlank c = true := by
  intro c inside
  rw [units, String.toList_join] at inside
  obtain ⟨u, member, within⟩ := List.mem_flatMap.mp inside
  exact blank c ((List.mem_replicate.mp member).2 ▸ within)

theorem trim_margin {margin : String} (blank : ∀ c ∈ margin.toList, Text.isBlank c = true)
    (text : String) : Text.trim (margin ++ text) = Text.trim text := by
  rw [Text.trim, Text.trim, Text.trimChars, Text.trimChars, String.toList_append,
    List.dropWhile_append_of_pos blank]

theorem platformAfter_indented {unit : String} (blank : ∀ c ∈ unit.toList, Text.isBlank c = true)
    (depth : Nat) (text : String) (now : Option Bool) :
    platformAfter now (indented unit depth text) = platformAfter now text := by
  have same : Text.trim (indented unit depth text) = Text.trim text := by
    rw [indented]
    split
    · rename_i empty
      rw [String.isEmpty_iff.mp empty]
    · exact trim_margin (isBlank_units blank depth) text
  rw [platformAfter, platformAfter, same]

/-- Behind lines that leave the platform as it is, it is still the same. -/
theorem platformBehind_shown {unit : String} (blank : ∀ c ∈ unit.toList, Text.isBlank c = true)
    {layout : Layout} (leaves : EachLine (fun t => ∀ now, platformAfter now t = now) layout)
    (depth : Nat) (now : Option Bool) : platformBehind now (shown unit depth layout) = now := by
  induction layout generalizing depth with
  | nil => rfl
  | cons step r ih =>
    have rest : EachLine (fun t => ∀ now, platformAfter now t = now) r := fun text member =>
      leaves text (List.mem_cons_of_mem step member)
    cases step with
    | line text =>
      have first := leaves text List.mem_cons_self now
      have later := ih rest depth
      rw [platformBehind] at later
      rw [shown, platformBehind, List.foldl_cons, platformAfter_indented blank, first, later]
    | enter => exact ih rest (depth + 1)
    | leave => exact ih rest (depth - 1)

/-- Behind the end of a condition, lines are meant for all platforms. -/
theorem platformBehind_endif {unit : String} (blank : ∀ c ∈ unit.toList, Text.isBlank c = true)
    (depth : Nat) (now : Option Bool) (before : List String) :
    platformBehind now (before ++ [indented unit depth "#endif"]) = none := by
  rw [platformBehind_append, platformBehind, List.foldl_cons, List.foldl_nil,
    platformAfter_indented blank, platformAfter, if_neg (by decide), if_neg (by decide),
    if_pos (by decide)]

end Layout

/-! ### Definitions -/

theorem opensDefinition_iff {symbol line : String} : opensDefinition symbol line = true ↔
    ∃ type ∈ resultTypes, ∃ params : String, '(' ∉ (params ++ ") \x7b").toList ∧
      line = type ++ " " ++ symbol ++ "(" ++ (params ++ ") \x7b") := by
  rw [opensDefinition, List.any_eq_true]
  refine exists_congr fun type => and_congr_right fun _ => ?_
  constructor
  · intro opens
    split at opens
    · rename_i rest dropped
      rw [Bool.and_eq_true, List.isSuffixOf_iff_suffix] at opens
      obtain ⟨single, ⟨r, whole⟩⟩ := opens
      have spelled : String.ofList r ++ ") \x7b" = rest :=
        String.toList_injective (by rw [String.toList_append, String.toList_ofList, whole])
      refine ⟨String.ofList r, ?_, ?_⟩
      · rw [spelled]
        simpa using single
      · rw [spelled]
        exact Text.dropLead?_eq_some_iff.mp dropped
    · cases opens
  · rintro ⟨params, single, rfl⟩
    rw [Text.dropLead?_append]
    simpa using single

end ScriptGlue.Code
