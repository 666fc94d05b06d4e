import ScriptGlue.Proofs.Hook.Bodies
import ScriptGlue.Proofs.Hook.Numbering

/-!
# Definitions of detours

The file of detours has one detour for each hook with a row, named for the key of the row. So a
detour is defined as often as there are hooks with the number of its row, which is once for each row
in use exactly if no two hooks share a number.
-/
namespace ScriptGlue.Hook

open Code Layout

/-! ### Heads of definitions -/

/-- Whether a line starts like the definition of a detour. -/
def startsDetour (line : String) : Bool :=
  resultTypes.any fun type => Text.startsWith line (type ++ " Hook_")

theorem startsDetour_of_opens {key line : String}
    (opens : opensDefinition (detourSymbol key) line = true) : startsDetour line = true := by
  obtain ⟨type, known, params, -, rfl⟩ := opensDefinition_iff.mp opens
  refine List.any_eq_true.mpr ⟨type, known, Text.startsWith_iff.mpr
    ⟨key ++ "(" ++ (params ++ ") \x7b"), ?_⟩⟩
  apply String.toList_injective
  simp [detourSymbol, toString]

theorem opens_eq_false {line : String} (other : startsDetour line = false) (key : String) :
    opensDefinition (detourSymbol key) line = false := by
  rw [Bool.eq_false_iff]
  intro opens
  rw [startsDetour_of_opens opens] at other
  cases other

/-- What starts with enough of something else is no definition of a detour. -/
theorem startsDetour_append {start rest : String}
    (apart : ∀ type ∈ resultTypes, ¬ (type ++ " Hook_").toList <+: start.toList ∧
      ¬ start.toList <+: (type ++ " Hook_").toList) : startsDetour (start ++ rest) = false := by
  rw [Bool.eq_false_iff]
  intro starts
  obtain ⟨type, known, starts⟩ := List.any_eq_true.mp starts
  rw [Text.startsWith, List.isPrefixOf_iff_prefix] at starts
  have own : start.toList <+: (start ++ rest).toList := by
    rw [String.toList_append]
    exact List.prefix_append _ _
  rcases List.prefix_or_prefix_of_prefix starts own with shorter | longer
  · exact (apart type known).1 shorter
  · exact (apart type known).2 longer

theorem startsDetour_margin (line : String) :
    startsDetour (Text.marginLine (units detourUnit 1) line) = false := by
  rw [Text.marginLine]
  split
  · decide
  · exact startsDetour_append (by decide)

/-- The last place of an entry parts a list in one way. -/
theorem append_cons_right_cancel {α : Type} {a : α} {xs ys l m : List α} (left : a ∉ l)
    (right : a ∉ m) (same : xs ++ a :: l = ys ++ a :: m) : xs = ys := by
  rcases List.append_eq_append_iff.mp same with ⟨c, rfl, behind⟩ | ⟨c, rfl, behind⟩
  · cases c with
    | nil => rw [List.append_nil]
    | cons d c =>
      obtain ⟨-, rfl⟩ := List.cons.inj behind
      exact absurd (List.mem_append_right c List.mem_cons_self) left
  · cases c with
    | nil => rw [List.append_nil]
    | cons d c =>
      obtain ⟨-, rfl⟩ := List.cons.inj behind
      exact absurd (List.mem_append_right c List.mem_cons_self) right

namespace Signature

variable (s : Signature) {leads : List Lead}

/-- The head of a detour opens the definition for its key and for no other. -/
theorem opensDefinition_headLine (known : leads ∈ leadChoices) (key : String) :
    opensDefinition (detourSymbol key) (s.headLine leads) = decide (s.key = key) := by
  have listed : '(' ∉ (", ".intercalate (s.takenParams leads)).toList :=
    not_mem_intercalate (by decide) fun t member => (s.forall_takenParams known t member).2
  have single : '(' ∉ (", ".intercalate (s.takenParams leads) ++ ") \x7b").toList := by
    rw [String.toList_append]
    exact List.not_mem_append listed (by decide)
  have spelled : s.headLine leads = s.returns.nativeType ++ " " ++ detourSymbol s.key ++ "(" ++
      (", ".intercalate (s.takenParams leads) ++ ") \x7b") := by
    apply String.toList_injective
    simp [headLine, detourSymbol, toString]
  rw [Bool.eq_iff_iff, decide_eq_true_iff]
  constructor
  · intro opens
    obtain ⟨type, isResult, params, others, same⟩ := opensDefinition_iff.mp opens
    rw [spelled] at same
    have chars := congrArg String.toList same
    simp only [String.toList_append, List.append_assoc] at chars
    have apart : ∀ a ∈ resultTypes, ∀ b ∈ resultTypes,
        a.toList ++ " ".toList <+: b.toList ++ " ".toList → a = b := by
      decide
    have ours := List.prefix_append (s.returns.nativeType.toList ++ " ".toList)
      ((detourSymbol s.key).toList ++ ("(".toList ++
        ((", ".intercalate (s.takenParams leads)).toList ++ ") \x7b".toList)))
    have theirs := List.prefix_append (type.toList ++ " ".toList)
      ((detourSymbol key).toList ++ ("(".toList ++ (params.toList ++ ") \x7b".toList)))
    rw [List.append_assoc] at ours theirs
    rw [← chars] at theirs
    obtain rfl : s.returns.nativeType = type := by
      rcases List.prefix_or_prefix_of_prefix ours theirs with shorter | longer
      · exact apart _ s.returns.nativeType_mem _ isResult shorter
      · exact (apart _ isResult _ s.returns.nativeType_mem longer).symm
    have rest := List.append_cancel_left (List.append_cancel_left chars)
    rw [String.toList_append] at single others
    have keys := append_cons_right_cancel single others rest
    simp only [detourSymbol, toString, String.toList_append] at keys
    exact String.toList_injective (List.append_cancel_left keys)
  · rintro rfl
    exact opensDefinition_iff.mpr ⟨_, s.returns.nativeType_mem, _, single, spelled⟩

/-! ### The lines of a detour -/

def headLines : List String :=
  if s.returnsVector then
    ["#ifdef _WIN32", s.headLine [.this, .out], "#else", s.headLine [.out, .this], "#endif"]
  else [s.headLine [.this]]

/-- The lines of a detour in its file. -/
def lines : List String :=
  s.headLines ++ (shown detourUnit 0 (s.callingPart ++ s.answeringPart)).map
    (Text.marginLine (units detourUnit 1)) ++ ["\x7d"]

theorem heads_eq : s.heads = ofLines s.headLines := by
  unfold heads onPlatforms headLines
  split <;> rfl

theorem shown_detourLayout : shown detourUnit 0 (detourLayout s) = s.lines := by
  rw [detourLayout_eq, shown_append, shown_append, depthAfter_append, s.isNested_heads.isLevel,
    s.isNested_body.enclosed.isLevel, heads_eq, shown_flush, s.isNested_body.shown_enclosed, lines]
  rfl

theorem isUnbroken_headLine {leads : List Lead} (known : leads ∈ leadChoices)
    (plain : Text.IsUnbroken s.key.toList) : Text.IsUnbroken (s.headLine leads).toList := by
  have result : ∀ t ∈ resultTypes, Text.IsUnbroken t.toList := by decide
  have params : Text.IsUnbroken (", ".intercalate (s.takenParams leads)).toList :=
    Text.IsUnbroken.intercalate (by decide) fun t member => (s.forall_takenParams known t member).1
  simp only [headLine, toString, String.append_assoc]
  simp +decide only [Text.isUnbroken_append, result _ s.returns.nativeType_mem, plain, params]

/-- If the key stays in one piece, all lines of the detour do. -/
theorem eachLine_detourLayout (plain : Text.IsUnbroken s.key.toList) :
    EachLine (fun t => Text.IsUnbroken t.toList) (detourLayout s) := by
  have marks : Text.IsUnbroken "#ifdef _WIN32".toList ∧ Text.IsUnbroken "#else".toList ∧
      Text.IsUnbroken "#endif".toList := by
    decide
  have head : ∀ leads ∈ leadChoices, ∀ l ∈ [s.headLine leads], Text.IsUnbroken l.toList :=
    fun leads known l member => by
      rw [List.mem_singleton.mp member]
      exact s.isUnbroken_headLine known plain
  have heads : EachLine (fun t => Text.IsUnbroken t.toList) s.heads :=
    s.eachLine_onPlatforms (p := fun t => Text.IsUnbroken t.toList) marks head
  have call : EachLine (fun t => Text.IsUnbroken t.toList) (detourCall s) := by
    rw [s.detourCall_eq]
    exact s.eachLine_onPlatforms marks fun leads known l member =>
      (s.isCode_callLines known l member).unbroken
  have listeners (before : Bool) :=
    (s.eachLine_listenerChain before).mono fun _ code => code.unbroken
  have answer := (eachLine_returnTail s.returns).mono fun _ code => code.unbroken
  have push : Text.IsUnbroken s.returns.pushMacro.toList := by
    cases s.returns <;> simp +decide [ReturnShape.pushMacro]
  have gap : EachLine (fun t => Text.IsUnbroken t.toList) [Layout.blank] := by decide
  have calling : EachLine (fun t => Text.IsUnbroken t.toList) s.callingPart :=
    ((gap.cons_line push).append (listeners true)).append gap |>.append
      (EachLine.block (by decide) call (by decide))
  have answering : EachLine (fun t => Text.IsUnbroken t.toList) s.answeringPart :=
    ((gap.append (listeners false)).append (eachLine_nil.cons_line (by decide))).append answer
  rw [detourLayout_eq]
  exact (heads.append (calling.append answering).enclosed).append
    (eachLine_nil.cons_line (by decide))

/-! ### Platforms of the lines of a detour -/

theorem isBlank_detourUnit : ∀ c ∈ detourUnit.toList, Text.isBlank c = true := by decide

theorem isCode_headLine {leads : List Lead} (known : leads ∈ leadChoices)
    (plain : Text.IsUnbroken s.key.toList) : IsCode (s.headLine leads) where
  unbroken := s.isUnbroken_headLine known plain
  quiet := by
    have starts : ∀ t ∈ resultTypes, t ≠ "" ∧ IsQuiet t := by decide
    obtain ⟨filled, quiet⟩ := starts _ s.returns.nativeType_mem
    simp only [headLine, toString, String.append_assoc]
    exact quiet.append filled _

/-- Behind a condition that is told apart by lines of its own, lines are for all platforms. -/
theorem platformBehind_onPlatforms {ls : List Lead → List String}
    (quiet : ∀ leads ∈ leadChoices, ∀ l ∈ ls leads, IsQuiet l) (depth : Nat) :
    platformBehind none (shown detourUnit depth (s.onPlatforms fun leads => ofLines (ls leads))) =
      none := by
  unfold onPlatforms
  split
  · have level : depthAfter depth (.line "#ifdef _WIN32" :: ofLines (ls [.this, .out]) ++
        .line "#else" :: ofLines (ls [.out, .this])) = depth := by
      rw [depthAfter_append, depthAfter, isLevel_ofLines, depthAfter, isLevel_ofLines]
    rw [perPlatform, shown_append, level]
    exact platformBehind_endif isBlank_detourUnit depth _ _
  · have single := eachLine_ofLines (quiet [.this] (by simp [leadChoices]))
    exact platformBehind_shown isBlank_detourUnit
      (single.mono fun _ quiet => platformAfter_quiet quiet) depth _

theorem platformBehind_callingPart (depth : Nat) :
    platformBehind none (shown detourUnit depth s.callingPart) = none := by
  have quiet {layout : Layout} (each : EachLine IsQuiet layout) (depth : Nat) :=
    platformBehind_shown isBlank_detourUnit (each.mono fun _ quiet => platformAfter_quiet quiet)
      depth none
  have push : IsQuiet s.returns.pushMacro := by
    cases s.returns <;> simp +decide [ReturnShape.pushMacro]
  have gap : EachLine IsQuiet [Layout.blank] := by decide
  have start : EachLine IsQuiet
      ([.line s.returns.pushMacro, Layout.blank] ++ listenerChain s true ++ [Layout.blank]) :=
    ((gap.cons_line push).append
      ((s.eachLine_listenerChain true).mono fun _ code => code.quiet)).append gap
  have call : platformBehind none (shown detourUnit (depth + 1) (detourCall s)) = none := by
    rw [s.detourCall_eq]
    exact s.platformBehind_onPlatforms
      (fun leads known l member => (s.isCode_callLines known l member).quiet) _
  have level : depthAfter depth
      ([.line s.returns.pushMacro, Layout.blank] ++ listenerChain s true ++ [Layout.blank]) =
        depth := by
    rw [depthAfter_append, depthAfter_append]
    exact (s.isNested_listenerChain true).isLevel depth
  have inner : depthAfter depth (opening "if (mgr.getCurrentResult() < HAM_SUPERCEDE)") =
      depth + 1 := rfl
  rw [callingPart, block, shown_append, platformBehind_append, quiet start, level, shown_append,
    shown_append, depthAfter_append, inner, platformBehind_append, platformBehind_append,
    quiet (by decide), call, quiet (by decide)]

/-- Behind a detour, lines are for all platforms again. -/
theorem platformBehind_lines (plain : Text.IsUnbroken s.key.toList) :
    platformBehind none s.lines = none := by
  have answering : EachLine IsQuiet s.answeringPart :=
    ((EachLine.append (by decide : EachLine IsQuiet [Layout.blank])
      ((s.eachLine_listenerChain false).mono fun _ code => code.quiet)).append
        (by decide)).append ((eachLine_returnTail s.returns).mono fun _ code => code.quiet)
  have heads : platformBehind none (shown detourUnit 0 s.heads) = none :=
    s.platformBehind_onPlatforms
      (fun leads known l member =>
        List.mem_singleton.mp member ▸ (s.isCode_headLine known plain).quiet) 0
  have body : platformBehind none
      (shown detourUnit 0 (.enter :: (s.callingPart ++ s.answeringPart) ++ [.leave])) = none := by
    have split : shown detourUnit 0 (.enter :: (s.callingPart ++ s.answeringPart) ++ [.leave]) =
        shown detourUnit 1 s.callingPart ++
          shown detourUnit (depthAfter 1 s.callingPart) s.answeringPart := by
      rw [List.cons_append, shown, shown_append, shown_append]
      exact List.append_nil _
    rw [split, platformBehind_append, s.platformBehind_callingPart,
      platformBehind_shown isBlank_detourUnit
        (answering.mono fun _ quiet => platformAfter_quiet quiet)]
  rw [← shown_detourLayout, detourLayout_eq, shown_append, shown_append, s.isNested_heads.isLevel,
    platformBehind_append, platformBehind_append, heads, body]
  have last : EachLine IsQuiet [.line "\x7d"] := by decide
  exact platformBehind_shown isBlank_detourUnit
    (last.mono fun _ quiet => platformAfter_quiet quiet) _ _

/-! ### Counting -/

variable {s} (plain : Text.IsUnbroken s.key.toList)
include plain

theorem lines_detourCode : Text.lines (detourCode s) = s.lines := by
  rw [detourCode, lines_renderAt (by decide) (s.eachLine_detourLayout plain), shown_detourLayout]

/-- On each platform, the lines of a detour define it once, and nothing else. -/
theorem countP_lines (windows : Bool) (key : String) :
    (keptLines windows none s.lines).countP (opensDefinition (detourSymbol key)) =
      if s.key = key then 1 else 0 := by
  have head {leads : List Lead} (known : leads ∈ leadChoices) :
      opensDefinition (detourSymbol key) (s.headLine leads) = decide (s.key = key) ∧
        ∀ now, platformAfter now (s.headLine leads) = now :=
    ⟨s.opensDefinition_headLine known key,
      platformAfter_quiet (s.isCode_headLine known plain).quiet⟩
  have marks : ∀ mark ∈ ["#ifdef _WIN32", "#else", "#endif"],
      opensDefinition (detourSymbol key) mark = false := fun mark member =>
    opens_eq_false (by revert mark; decide) key
  have rest : ∀ l ∈ (shown detourUnit 0 (s.callingPart ++ s.answeringPart)).map
      (Text.marginLine (units detourUnit 1)) ++ ["\x7d"],
      opensDefinition (detourSymbol key) l = false := by
    intro l member
    refine opens_eq_false ?_ key
    rcases List.mem_append.mp member with inner | last
    · obtain ⟨t, -, rfl⟩ := List.mem_map.mp inner
      exact startsDetour_margin t
    · rw [List.mem_singleton.mp last]
      decide
  rw [lines, List.append_assoc, keptLines_append, List.countP_append,
    countP_keptLines_eq_zero rest, Nat.add_zero]
  unfold headLines
  split
  · have opens : platformAfter none "#ifdef _WIN32" = some true := by decide
    have turns : platformAfter (some true) "#else" = some false := by decide
    obtain ⟨first, same⟩ := @head [.this, .out] (by simp [leadChoices])
    obtain ⟨second, same'⟩ := @head [.out, .this] (by simp [leadChoices])
    simp only [keptLines, opens, same, turns, same']
    cases windows <;> simp [List.countP_cons, marks, first, second]
  · obtain ⟨single, -⟩ := @head [.this] (by simp [leadChoices])
    simp [keptLines, List.countP_cons, single]

end Signature

/-! ### Before all detours -/

/-- A line before all detours: in one piece, for the platform of its neighbours, and no definition
of a detour. -/
structure IsPreamble (line : String) : Prop where
  unbroken : Text.IsUnbroken line.toList
  other : startsDetour line = false
  platform : ∀ now, platformAfter now line = now

/-- A text that the preprocessor does not read, wherever it stands. -/
def IsMacroText (text : String) : Prop := ∀ c ∈ text.toList, c ≠ '#' ∧ Text.isLineEnd c = false

instance (text : String) : Decidable (IsMacroText text) :=
  inferInstanceAs (Decidable (∀ c ∈ text.toList, c ≠ '#' ∧ Text.isLineEnd c = false))

theorem isMacroText_of_chars {text : String} {cs : List Char} (spelled : text = String.ofList cs)
    (each : ∀ c ∈ cs, c ≠ '#' ∧ Text.isLineEnd c = false) : IsMacroText text := by
  rwa [IsMacroText, spelled, String.toList_ofList]

theorem IsMacroText.append {a b : String} (first : IsMacroText a) (second : IsMacroText b) :
    IsMacroText (a ++ b) := by
  intro c member
  rw [String.toList_append, List.mem_append] at member
  exact member.elim (first c) (second c)

theorem IsMacroText.unbroken {text : String} (plain : IsMacroText text) :
    Text.IsUnbroken text.toList := fun c member => (plain c member).2

theorem isPreamble_directive {start : String} (known : start ∈ ["#define ", "#include "])
    {rest : String} (unbroken : Text.IsUnbroken rest.toList) : IsPreamble (start ++ rest) := by
  have plain : ∀ start ∈ ["#define ", "#include "], Text.IsUnbroken start.toList := by decide
  have other : ∀ start ∈ ["#define ", "#include "], ∀ type ∈ resultTypes,
      ¬ (type ++ " Hook_").toList <+: start.toList ∧
        ¬ start.toList <+: (type ++ " Hook_").toList := by
    decide
  have solid : ∀ start ∈ ["#define ", "#include "], ∃ c ∈ start.toList.head?,
      Text.isBlank c = false := by
    have mark : Text.isBlank '#' = false := by decide
    simp [mark]
  have apart : ∀ start ∈ ["#define ", "#include "], ∀ mark ∈ platformMarks,
      ¬ mark.toList <+: start.toList ∧ ¬ start.toList <+: mark.toList := by
    decide
  exact ⟨Text.isUnbroken_append.mpr ⟨plain start known, unbroken⟩,
    startsDetour_append (other start known),
    platformAfter_append (solid start known) (apart start known) rest⟩

theorem isPreamble_indented {text : String} (plain : IsMacroText text) :
    IsPreamble ("    " ++ text) where
  unbroken := Text.isUnbroken_append.mpr ⟨by decide, plain.unbroken⟩
  other := startsDetour_append (by decide)
  platform := platformAfter_of_not_mem fun mark =>
    ((IsMacroText.append (by decide) plain) '#' mark).1 rfl

theorem isPreamble_macroLines {name : String} {body : List String} (named : IsMacroText name)
    (each : ∀ l ∈ body, IsMacroText l) : ∀ l ∈ macroLines name body, IsPreamble l := by
  have goesOn : IsMacroText " \\" := by decide
  have first : IsPreamble (s!"#define {name}") ∧ IsPreamble (s!"#define {name}" ++ " \\") := by
    simp only [toString, String.append_assoc]
    exact ⟨isPreamble_directive (by simp) named.unbroken,
      isPreamble_directive (by simp) (named.append goesOn).unbroken⟩
  intro l member
  unfold macroLines at member
  split at member
  · exact List.mem_singleton.mp member ▸ first.1
  · rename_i last found
    rw [List.map_cons, List.cons_append, List.mem_cons, List.mem_append, List.map_map,
      List.mem_map, List.mem_singleton] at member
    rcases member with rfl | ⟨b, inside, rfl⟩ | rfl
    · exact first.2
    · rw [Function.comp_apply, String.append_assoc]
      exact isPreamble_indented ((each b (List.dropLast_subset _ inside)).append goesOn)
    · exact isPreamble_indented (each last (List.mem_of_getLast? found))

theorem isPreamble_pushMacroLines {name : String} {locals : List String} (named : IsMacroText name)
    (each : ∀ l ∈ locals, IsMacroText l) : ∀ l ∈ pushMacroLines name locals, IsPreamble l := by
  have start : ∀ l ∈ ["HamManager& mgr = HamManager::instance();",
      "mgr.setCurrentResult(HAM_UNSET);", "hook->setExecuting(true);"], IsMacroText l := by
    decide
  refine isPreamble_macroLines named fun l member => ?_
  simp only [List.mem_append, List.mem_cons, List.not_mem_nil, or_false] at member
  rcases member with ((rfl | rfl) | own) | rfl
  · exact start _ (by simp)
  · exact start _ (by simp)
  · exact each l own
  · exact start _ (by simp)

theorem isPreamble_checkMacroLines {name conversion : String} (named : IsMacroText name)
    (converts : IsMacroText conversion) : ∀ l ∈ checkMacroLines name conversion, IsPreamble l := by
  refine isPreamble_macroLines named ?_
  have set : IsMacroText ("            ret = " ++ conversion ++ ";") :=
    (IsMacroText.append (by decide) converts).append (by decide)
  simp only [List.forall_mem_cons, set, true_and]
  -- The other lines are checked by their characters.
  repeat' apply And.intro
  all_goals first
    | exact isMacroText_of_chars rfl (by decide)
    | exact fun _ member => absurd member List.not_mem_nil

theorem isPreamble_sharedMacros : ∀ m ∈ sharedMacros, ∀ l ∈ m, IsPreamble l := by
  simp only [sharedMacros, List.forall_mem_cons]
  refine ⟨isPreamble_pushMacroLines (by decide) (by decide),
    isPreamble_pushMacroLines (by decide) (by decide),
    isPreamble_pushMacroLines (by decide) (by decide),
    isPreamble_pushMacroLines (by decide) (by decide),
    isPreamble_pushMacroLines (by decide) (by decide),
    isPreamble_pushMacroLines (by decide) (by decide),
    isPreamble_macroLines (by decide) (by decide),
    isPreamble_checkMacroLines (by decide) (isMacroText_of_chars rfl (by decide)),
    isPreamble_checkMacroLines (by decide) (isMacroText_of_chars rfl (by decide)),
    fun _ member => absurd member List.not_mem_nil⟩

theorem isPreamble_includeLine {header : String} (unbroken : Text.IsUnbroken header.toList) :
    IsPreamble (includeLine header) := by
  have quoted : Text.IsUnbroken ("\"" ++ header ++ "\"").toList := by
    simp +decide only [Text.isUnbroken_append, unbroken]
  have behind {rest : String} (whole : Text.IsUnbroken rest.toList) :
      IsPreamble ("#include " ++ rest) := isPreamble_directive (by simp) whole
  rw [includeLine]
  split
  · exact behind unbroken
  · have spelled : s!"#include \"{header}\"" = "#include " ++ ("\"" ++ header ++ "\"") :=
      String.toList_injective (by simp [toString])
    rw [spelled]
    exact behind quoted

theorem eachLine_openingPart : EachLine IsPreamble Catalogue.openingPart := by
  have blank : IsPreamble "" := ⟨by decide, by decide, platformAfter_of_not_mem (by decide)⟩
  have gap : EachLine IsPreamble [Layout.blank] := eachLine_nil.cons_line blank
  have headers : ∀ h ∈ detourIncludes, Text.IsUnbroken h.toList := by decide
  have included : EachLine IsPreamble (includes detourIncludes) := by
    rw [includes_eq]
    refine eachLine_ofLines fun l member => ?_
    obtain ⟨h, inside, rfl⟩ := List.mem_map.mp member
    exact isPreamble_includeLine (headers h inside)
  have engine : IsPreamble "extern enginefuncs_t g_engfuncs;" :=
    ⟨by decide, by decide, platformAfter_of_not_mem (by decide)⟩
  have names : IsPreamble "using namespace Ham;" :=
    ⟨by decide, by decide, platformAfter_of_not_mem (by decide)⟩
  have macros : EachLine IsPreamble
      ([Layout.blank].intercalate (sharedMacros.map (·.map Step.line))) := by
    intro text member
    rcases mem_intercalate member with between | ⟨part, among, inside⟩
    · exact gap text between
    · obtain ⟨m, listed, rfl⟩ := List.mem_map.mp among
      exact eachLine_ofLines (isPreamble_sharedMacros m listed) text inside
  have middle := ((gap.cons_line names).cons_line blank).cons_line engine |>.cons_line blank
  exact ((included.append middle).append macros).append gap

/-! ### The file of detours -/

namespace Catalogue

theorem startsDetour_indented {line : String} (other : startsDetour line = false) (depth : Nat) :
    startsDetour (indented detourUnit depth line) = false := by
  cases depth with
  | zero => rwa [indented_zero]
  | succ depth =>
    rw [Nat.add_comm, indented_add]
    exact startsDetour_margin _

section

variable {detours : List Signature} (plain : ∀ s ∈ detours, Text.IsUnbroken s.key.toList)
include plain

theorem copies_eq : copies detours = ofLines (detours.flatMap fun s => s.lines ++ [""]) := by
  rw [copies_eq_ofLines]
  refine congrArg ofLines (List.flatMap_congr fun s member => ?_)
  rw [Signature.lines_detourCode (plain s member)]

/-- In the file of detours, a symbol is defined once for each row with its key. -/
theorem countP_copies (windows : Bool) (key : String) :
    (keptLines windows none (detours.flatMap fun s => s.lines ++ [""])).countP
        (opensDefinition (detourSymbol key)) = detours.countP (·.key = key) ∧
      platformBehind none (detours.flatMap fun s => s.lines ++ [""]) = none := by
  have empty : opensDefinition (detourSymbol key) "" = false := opens_eq_false (by decide) key
  have gap : platformBehind none [""] = none := by decide
  induction detours with
  | nil => exact ⟨rfl, rfl⟩
  | cons s r ih =>
    obtain ⟨count, behind⟩ := ih fun t member => plain t (List.mem_cons_of_mem s member)
    have own := plain s List.mem_cons_self
    have back := s.platformBehind_lines own
    constructor
    · rw [List.flatMap_cons, keptLines_append, keptLines_append, platformBehind_append, back, gap,
        List.countP_append, List.countP_append, count, Signature.countP_lines own,
        countP_keptLines_eq_zero (by simpa using empty), List.countP_cons]
      simp [Nat.add_comm]
    · rw [List.flatMap_cons, platformBehind_append, platformBehind_append, back, gap, behind]

end

variable {c : Catalogue}

theorem startsDetour_closingPart : ∀ l ∈ shown detourUnit 0 c.closingPart,
    startsDetour l = false := by
  intro l member
  have whole : shown detourUnit 0 c.closingPart =
      s!"const size_t g_hamCallbackCount = {c.entries.length};" ::
        shown detourUnit 0 c.detourTable.layout := rfl
  have head : c.detourTable.head = "void* g_hamCallbacks[]" := rfl
  rw [whole, ListDef.layout, (ListDef.isNested_itemLines _).shown_block, head] at member
  simp only [List.mem_cons, List.mem_append, List.not_mem_nil, or_false] at member
  rcases member with rfl | (rfl | inner) | rfl
  · rw [toString, String.append_assoc]
    exact startsDetour_append (by decide)
  · exact startsDetour_append (by decide)
  · obtain ⟨t, -, rfl⟩ := List.mem_map.mp inner
    exact startsDetour_margin t
  · decide

/-- The keys of all detours and the names of all hooks stay in one piece. -/
structure OneLine (c : Catalogue) : Prop where
  keys : ∀ s ∈ c.detours, Text.IsUnbroken s.key.toList
  names : ∀ e ∈ c.entries, Text.IsUnbroken e.name.toList

section

variable (oneLine : c.OneLine)
include oneLine

/-- A line of the table of detours is not broken by the name of its hook. -/
theorem isUnbroken_detourItem {e : Entry} (member : e ∈ c.entries) {comma : String}
    (mark : comma ∈ ["", ","]) :
    Text.IsUnbroken (ListDef.itemText comma e.detourItem).toList := by
  have commas : ∀ comma ∈ ["", ","], Text.IsUnbroken comma.toList := by decide
  have name := oneLine.names e member
  unfold Entry.detourItem
  split
  · rename_i s row
    have key := oneLine.keys s (List.mem_filterMap.mpr ⟨e, member, row⟩)
    simp only [ListDef.itemText, detourSymbol, toString]
    simp +decide only [Text.isUnbroken_append, Text.isUnbroken_repr, key, name, commas comma mark]
  · simp only [ListDef.itemText, toString]
    simp +decide only [Text.isUnbroken_append, Text.isUnbroken_repr, name, commas comma mark]

theorem eachLine_closingPart :
    EachLine (fun t => Text.IsUnbroken t.toList) c.closingPart := by
  have count : Text.IsUnbroken
      (s!"const size_t g_hamCallbackCount = {c.entries.length};").toList := by
    simp only [toString]
    simp +decide only [Text.isUnbroken_append, Text.isUnbroken_repr]
  have items : EachLine (fun t => Text.IsUnbroken t.toList)
      (ListDef.itemLines c.detourTable.items) := by
    intro text member
    obtain ⟨item, among, comma, mark, same⟩ := ListDef.mem_itemLines member
    obtain ⟨e, inside, rfl⟩ := List.mem_map.mp among
    rw [Step.line.inj same]
    exact isUnbroken_detourItem oneLine inside mark
  have head : Text.IsUnbroken ("void* g_hamCallbacks[]" ++ " =" ++ " \x7b").toList := by decide
  exact (EachLine.block head items (by decide)).cons_line count

/-- The file of detours line by line. -/
theorem lines_detourFile : Text.lines c.detourFile = shown detourUnit 0 openingPart ++
    c.detours.flatMap (fun s => s.lines ++ [""]) ++ shown detourUnit 0 c.closingPart := by
  have unit : Text.IsUnbroken detourUnit.toList := by decide
  have middle : EachLine (fun t => Text.IsUnbroken t.toList) (copies c.detours) := by
    rw [copies_eq oneLine.keys]
    refine eachLine_ofLines fun l member => ?_
    obtain ⟨s, among, inside⟩ := List.mem_flatMap.mp member
    rcases List.mem_append.mp inside with own | gap
    · rw [← s.shown_detourLayout] at own
      exact forall_shown (q := fun t => Text.IsUnbroken t.toList)
        (fun depth _ => isUnbroken_indented unit depth)
        (s.eachLine_detourLayout (oneLine.keys s among)) 0 l own
    · rw [List.mem_singleton.mp gap]
      decide
  have whole : EachLine (fun t => Text.IsUnbroken t.toList) c.detourFileLayout :=
    ((eachLine_openingPart.mono fun _ line => line.unbroken).append middle).append
      (eachLine_closingPart oneLine)
  rw [detourFile, lines_renderAt unit whole, detourFileLayout_eq, shown_append,
    shown_append, depthAfter_append, isNested_openingPart.isLevel, (isNested_copies _).isLevel,
    copies_eq oneLine.keys, shown_flush]

/-- On each platform, a detour is defined once for each hook that has its row. -/
theorem definitions_detourFile (windows : Bool) (key : String) :
    definitions windows (detourSymbol key) c.detourFile = c.detours.countP (·.key = key) := by
  have other : ∀ l ∈ shown detourUnit 0 openingPart, startsDetour l = false :=
    forall_shown (p := IsPreamble) (fun depth _ line => startsDetour_indented line.other depth)
      eachLine_openingPart 0
  have before : ∀ l ∈ shown detourUnit 0 openingPart,
      opensDefinition (detourSymbol key) l = false := fun l member =>
    opens_eq_false (other l member) key
  have behind : ∀ l ∈ shown detourUnit 0 c.closingPart,
      opensDefinition (detourSymbol key) l = false := fun l member =>
    opens_eq_false (startsDetour_closingPart l member) key
  have platform : platformBehind none (shown detourUnit 0 openingPart) = none :=
    platformBehind_shown Signature.isBlank_detourUnit
      (eachLine_openingPart.mono fun _ line => line.platform) 0 none
  rw [definitions, lines_detourFile oneLine, keptLines_append, keptLines_append, platform,
    List.countP_append, List.countP_append, countP_keptLines_eq_zero before,
    countP_keptLines_eq_zero behind, (countP_copies oneLine.keys windows key).1, Nat.zero_add,
    Nat.add_zero]

end

/-! ### Rows and hooks -/

/-- The numbers of hooks that are those of rows. -/
def reachedIds (c : Catalogue) : List Nat :=
  (c.entries.map (·.id)).filter (· < c.signatures.length)

/-- What the table of detours refers to is defined. -/
def TableDefined (c : Catalogue) : Prop :=
  ∀ windows, ∀ item ∈ c.detourTable.items, item.text = "nullptr" ∨
    ∃ s ∈ c.signatures, item.text = s!"reinterpret_cast<void*>({detourSymbol s.key})" ∧
      0 < definitions windows (detourSymbol s.key) c.detourFile

/-- How often detours are defined. -/
structure CountsDefinitions (c : Catalogue) : Prop where
  /-- The detour of a row is defined as often as there are hooks with its number. -/
  rows : ∀ windows i s, c.signatures[i]? = some s →
    definitions windows (detourSymbol s.key) c.detourFile = c.entries.countP (·.id = i)
  others : ∀ windows key, (∀ s ∈ c.signatures, s.key ≠ key) →
    definitions windows (detourSymbol key) c.detourFile = 0
  table : c.TableDefined

/-- Each row that a hook has comes with one definition, and there are no others. -/
structure DefinesOnce (c : Catalogue) : Prop where
  rows : ∀ windows, ∀ s ∈ c.signatures,
    definitions windows (detourSymbol s.key) c.detourFile = if s ∈ c.detours then 1 else 0
  others : ∀ windows key, (∀ s ∈ c.signatures, s.key ≠ key) →
    definitions windows (detourSymbol key) c.detourFile = 0
  table : c.TableDefined

theorem mem_signatures_of_mem_detours (joined : c.Joined) {s : Signature} (member : s ∈ c.detours) :
    s ∈ c.signatures := by
  obtain ⟨e, inside, row⟩ := List.mem_filterMap.mp member
  rw [joined e inside] at row
  exact List.mem_of_getElem? row

section

variable (joined : c.Joined) (keys : (c.signatures.map (·.key)).Nodup)
include joined keys

/-- Detours with the key of a row are those of hooks with its number. -/
theorem countP_detours {i : Nat} {s : Signature} (row : c.signatures[i]? = some s) :
    c.detours.countP (·.key = s.key) = c.entries.countP (·.id = i) := by
  rw [detours, List.countP_filterMap]
  refine List.countP_congr fun e member => ?_
  rw [joined e member]
  cases own : c.signatures[e.id]? with
  | none =>
    have other : e.id ≠ i := fun same => by
      rw [same, row] at own
      cases own
    simp [other]
  | some t =>
    rw [Option.map_some, Option.getD_some, decide_eq_true_iff, decide_eq_true_iff]
    constructor
    · exact fun same => row_of_key keys own row same
    · intro same
      rw [same, row] at own
      rw [Option.some.inj own]

variable (oneLine : c.OneLine)
include oneLine

theorem counts_definitions : c.CountsDefinitions where
  rows windows i s row := by
    rw [definitions_detourFile oneLine, countP_detours joined keys row]
  others windows key free := by
    rw [definitions_detourFile oneLine, List.countP_eq_zero]
    intro s member
    simpa using free s (mem_signatures_of_mem_detours joined member)
  table windows item member := by
    obtain ⟨e, inside, rfl⟩ := List.mem_map.mp member
    cases row : e.signature with
    | none =>
      left
      rw [Entry.detourItem, row]
    | some s =>
      have listed : s ∈ c.detours := List.mem_filterMap.mpr ⟨e, inside, row⟩
      refine .inr ⟨s, mem_signatures_of_mem_detours joined listed, text_detourItem row, ?_⟩
      rw [definitions_detourFile oneLine, List.countP_pos_iff]
      exact ⟨s, listed, by simp⟩

/-- The rows in use are defined once each exactly if no two of their hooks share a number. -/
theorem definesOnce_iff_nodup : c.DefinesOnce ↔ c.reachedIds.Nodup := by
  have counts := counts_definitions joined keys oneLine
  have count_reached {i : Nat} (bound : i < c.signatures.length) :
      c.reachedIds.count i = c.entries.countP (·.id = i) := by
    rw [reachedIds, List.count_filter (by simpa using bound), List.count, List.countP_map]
    exact List.countP_congr fun e _ => by simp
  rw [List.nodup_iff_count_le_one]
  constructor
  · intro once i
    by_cases bound : i < c.signatures.length
    · have row := List.getElem?_eq_getElem bound
      rw [count_reached bound, ← counts.rows true i _ row,
        once.rows true _ (List.getElem_mem bound)]
      split
      · exact Nat.le_refl 1
      · exact Nat.zero_le 1
    · have free : i ∉ c.reachedIds := fun member => bound (by
        simpa using (List.mem_filter.mp member).2)
      rw [List.count_eq_zero.mpr free]
      exact Nat.zero_le 1
  · intro distinct
    refine ⟨fun windows s member => ?_, counts.others, counts.table⟩
    obtain ⟨i, row⟩ := List.mem_iff_getElem?.mp member
    have bound := (List.getElem?_eq_some_iff.mp row).1
    have most := distinct i
    rw [count_reached bound, ← counts.rows windows i s row] at most
    split
    · rename_i listed
      have some : 0 < definitions windows (detourSymbol s.key) c.detourFile := by
        rw [definitions_detourFile oneLine, List.countP_pos_iff]
        exact ⟨s, listed, by simp⟩
      omega
    · rename_i unlisted
      rw [definitions_detourFile oneLine, countP_detours joined keys row, List.countP_eq_zero]
      intro e inside same
      refine unlisted (List.mem_filterMap.mpr ⟨e, inside, ?_⟩)
      rw [joined e inside, of_decide_eq_true same, row]

end

/-- However hooks are joined with rows of different keys, the definition of a detour stands in the
file once for each hook with the number of its row. So it stands there once for each row in use
exactly if the hooks of rows have different numbers. -/
theorem detours_defined (hooks : List Enumerator) (rows : List Signature)
    (results : List Enumerator) (keys : (rows.map (·.key)).Nodup)
    (keyLines : ∀ s ∈ rows, Text.IsUnbroken s.key.toList)
    (nameLines : ∀ h ∈ hooks, Text.IsUnbroken h.name.toList) :
    (join hooks rows results).CountsDefinitions ∧
      ((join hooks rows results).DefinesOnce ↔ (join hooks rows results).reachedIds.Nodup) := by
  have joined := joined_join hooks rows results
  have oneLine : (join hooks rows results).OneLine := by
    refine ⟨fun s member => keyLines s (mem_signatures_of_mem_detours joined member), ?_⟩
    intro e member
    obtain ⟨h, inside, rfl⟩ := List.mem_map.mp member
    exact nameLines h inside
  exact ⟨counts_definitions joined keys oneLine, definesOnce_iff_nodup joined keys oneLine⟩

theorem detours_defined_sample :
    (sampleRows.map (·.key)).Nodup ∧ (∀ s ∈ sampleRows, Text.IsUnbroken s.key.toList) ∧
      sampleCatalogue.DefinesOnce := by
  have keys : (sampleRows.map (·.key)).Nodup := by decide
  have keyLines : ∀ s ∈ sampleRows, Text.IsUnbroken s.key.toList := by decide
  have nameLines : ∀ h ∈ [(⟨"Spawn", 0, 1⟩ : Enumerator), ⟨"CS_Restart", 1, 1⟩],
      Text.IsUnbroken h.name.toList := by
    decide
  exact ⟨keys, keyLines,
    (detours_defined _ sampleRows defaultResults keys keyLines nameLines).2.mpr (by decide)⟩

/-- Two rows, and two names for the hook of the first one. -/
def doubledEnum : String := "enum HamType \x7b Ham_Spawn = 0, Ham_spawn = 0 \x7d;"

def doubledArray : String :=
  "g_hamFunctions[] = \x7b \x7b\"spawn\", HAM_RET_VOID, 0, \x7b\x7d\x7d, " ++
    "\x7b\"use\", HAM_RET_VOID, 0, \x7b\x7d\x7d \x7d;"

def doubledCatalogue : Catalogue :=
  join [⟨"Spawn", 0, 1⟩, ⟨"spawn", 0, 1⟩]
    [⟨"spawn", .void, 0, [], 1⟩, ⟨"use", .void, 0, [], 1⟩] defaultResults

/-- Two hooks that share a number pass for consistent with the rows, but the detour of their row is
defined twice. -/
theorem not_definesOnce_doubled :
    Catalogue.read doubledEnum doubledArray = .ok doubledCatalogue ∧
      (doubledCatalogue.signatures.map (·.key)).Nodup ∧ doubledCatalogue.issues = [] ∧
      (∀ windows, definitions windows "Hook_spawn" doubledCatalogue.detourFile = 2) ∧
      ¬ doubledCatalogue.DefinesOnce := by
  have oneLine : doubledCatalogue.OneLine := ⟨by decide, by decide⟩
  have twice (windows : Bool) :
      definitions windows "Hook_spawn" doubledCatalogue.detourFile = 2 :=
    definitions_detourFile oneLine windows "spawn"
  refine ⟨by decide +kernel, by decide, by decide +kernel, twice, fun once => ?_⟩
  have most := once.rows true ⟨"spawn", .void, 0, [], 1⟩ (by decide)
  have same : detourSymbol "spawn" = "Hook_spawn" := by decide
  rw [same, twice true] at most
  split at most <;> omega

end Catalogue

end ScriptGlue.Hook
