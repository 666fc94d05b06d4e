import ScriptGlue.Code.Typing
import ScriptGlue.Proofs.Code.Rendering
import ScriptGlue.Proofs.Text.Margins

/-!
# Nested layouts

A layout is nested if it takes back all the indentation that it puts in and no more. Such a layout
is made for all depths at once: deeper in, it gives the same lines behind a margin. The generated
forms of code are nested, and a text that is copied line by line is given the same margin.
-/
namespace ScriptGlue.Code

namespace Layout

/-- With some units of indentation put in before, no more are taken back than there are. -/
def StaysIn (depth : Nat) (layout : Layout) : Prop :=
  ∀ n, (layout.take n).count .leave ≤ (layout.take n).count .enter + depth

/-- Every unit of indentation that is taken back has been put in before, and none is left. -/
structure IsNested (layout : Layout) : Prop where
  staysIn : StaysIn 0 layout
  closed : layout.count .leave = layout.count .enter

/-- Lines only. -/
def OnlyLines (layout : Layout) : Prop := ∀ step ∈ layout, ∃ text, step = .line text

instance (layout : Layout) : Decidable (OnlyLines layout) :=
  have isLine (step : Step) : Decidable (∃ text, step = .line text) :=
    match step with
    | .line text => .isTrue ⟨text, rfl⟩
    | .enter => .isFalse (by simp)
    | .leave => .isFalse (by simp)
  List.decidableBAll _ layout

/-- What is true of each line. -/
def EachLine (p : String → Prop) (layout : Layout) : Prop := ∀ text, .line text ∈ layout → p text

instance (p : String → Prop) [DecidablePred p] (layout : Layout) :
    Decidable (EachLine p layout) :=
  have holds (step : Step) : Decidable (∀ text, step = .line text → p text) :=
    match step with
    | .line text => decidable_of_iff (p text)
      ⟨fun here _ same => Step.line.inj same ▸ here, fun all => all text rfl⟩
    | .enter => .isTrue (by simp)
    | .leave => .isTrue (by simp)
  decidable_of_iff (∀ step ∈ layout, ∀ text, step = .line text → p text)
    ⟨fun all text member => all _ member text rfl, fun all _ member text same =>
      all text (same ▸ member)⟩

/-- No line holds a line end. -/
def IsPlain (layout : Layout) : Prop := EachLine (fun text => '\n' ∉ text.toList) layout

/-! ### Lines of parts -/

section

variable {p : String → Prop} {a b body : Layout} {head closer text : String}

theorem line_mem_block : .line text ∈ block head body closer ↔
    text = head ++ " \x7b" ∨ .line text ∈ body ∨ text = closer := by
  simp [block, opening, closing]

theorem line_mem_scope :
    .line text ∈ scope body ↔ text = "\x7b" ∨ .line text ∈ body ∨ text = "\x7d" := by
  simp [scope, closing]

theorem eachLine_nil : EachLine p [] := fun _ member => absurd member List.not_mem_nil

theorem eachLine_ofLines {ls : List String} (each : ∀ l ∈ ls, p l) : EachLine p (ofLines ls) := by
  intro text member
  obtain ⟨l, inside, same⟩ := List.mem_map.mp member
  exact Step.line.inj same ▸ each l inside

theorem EachLine.mono {q : String → Prop} (each : EachLine p a) (weaker : ∀ t, p t → q t) :
    EachLine q a := fun text member => weaker text (each text member)

theorem EachLine.append (first : EachLine p a) (second : EachLine p b) : EachLine p (a ++ b) :=
  fun text member => (List.mem_append.mp member).elim (first text) (second text)

theorem EachLine.cons_line (here : p text) (rest : EachLine p a) : EachLine p (.line text :: a) :=
  fun other member => (List.mem_cons.mp member).elim (fun same => Step.line.inj same ▸ here)
    (rest other)

theorem EachLine.enclosed (inside : EachLine p body) : EachLine p (.enter :: body ++ [.leave]) := by
  intro text member
  simp only [List.cons_append, List.mem_cons, reduceCtorEq, false_or, List.mem_append,
    List.not_mem_nil, or_false] at member
  exact inside text member

theorem EachLine.block (opens : p (head ++ " \x7b")) (inside : EachLine p body)
    (closes : p closer) : EachLine p (block head body closer) := by
  intro text member
  rcases line_mem_block.mp member with rfl | inner | rfl
  · exact opens
  · exact inside text inner
  · exact closes

theorem EachLine.scope (opens : p "\x7b") (inside : EachLine p body) (closes : p "\x7d") :
    EachLine p (scope body) := by
  intro text member
  rcases line_mem_scope.mp member with rfl | inner | rfl
  · exact opens
  · exact inside text inner
  · exact closes

end

/-! ### Nesting by parts -/

section

variable {a b body : Layout}

theorem IsNested.append (first : IsNested a) (second : IsNested b) : IsNested (a ++ b) where
  staysIn n := by
    have here := first.staysIn n
    have later := second.staysIn (n - a.length)
    rw [List.take_append, List.count_append, List.count_append]
    omega
  closed := by
    rw [List.count_append, List.count_append, first.closed, second.closed]

theorem OnlyLines.isNested (flat : OnlyLines a) : IsNested a := by
  have none (mark : Step) (indents : ∀ text, mark ≠ .line text) (front : Layout)
      (part : front ⊆ a) : front.count mark = 0 := by
    refine List.count_eq_zero.mpr fun member => ?_
    obtain ⟨text, same⟩ := flat mark (part member)
    exact indents text same
  have leaves := none .leave (by simp)
  have enters := none .enter (by simp)
  refine ⟨fun n => ?_, ?_⟩
  · rw [leaves _ (List.take_subset n a)]
    exact Nat.zero_le _
  · rw [leaves a fun _ member => member, enters a fun _ member => member]

theorem onlyLines_ofLines (ls : List String) : OnlyLines (ofLines ls) := by
  intro step member
  obtain ⟨l, -, rfl⟩ := List.mem_map.mp member
  exact ⟨l, rfl⟩

theorem onlyLines_map {α : Type} (text : α → String) (l : List α) :
    OnlyLines (l.map fun a => .line (text a)) := by
  intro step member
  obtain ⟨a, -, rfl⟩ := List.mem_map.mp member
  exact ⟨text a, rfl⟩

theorem isNested_nil : IsNested [] := ⟨fun _ => by simp, rfl⟩

theorem isNested_line (text : String) : IsNested [.line text] :=
  (onlyLines_ofLines [text]).isNested

theorem IsNested.cons_line (nested : IsNested a) (text : String) : IsNested (.line text :: a) :=
  (isNested_line text).append nested

/-- What stands between putting in and taking back. -/
theorem IsNested.enclosed (inside : IsNested body) : IsNested (.enter :: body ++ [.leave]) where
  staysIn n := by
    cases n with
    | zero => simp
    | succ n =>
      have ends : ([Step.leave].take (n - body.length)).count .leave ≤ 1 :=
        List.count_le_length.trans (List.length_take_le' _ _)
      have here := inside.staysIn n
      rw [List.cons_append, List.take_succ_cons, List.take_append,
        List.count_cons_of_ne (by decide), List.count_cons_self, List.count_append,
        List.count_append]
      omega
  closed := by
    rw [List.cons_append, List.count_cons_of_ne (by decide), List.count_cons_self,
      List.count_append, List.count_append, inside.closed]
    rfl

theorem isNested_block (head closer : String) (inside : IsNested body) :
    IsNested (block head body closer) := by
  have whole : block head body closer =
      [.line (head ++ " \x7b")] ++ (.enter :: body ++ [.leave]) ++ [.line closer] := by
    simp [block, opening, closing]
  rw [whole]
  exact ((isNested_line _).append inside.enclosed).append (isNested_line closer)

theorem isNested_scope (inside : IsNested body) : IsNested (scope body) := by
  have whole : scope body =
      [.line "\x7b"] ++ (.enter :: body ++ [.leave]) ++ [.line "\x7d"] := by
    simp [scope, closing]
  rw [whole]
  exact ((isNested_line _).append inside.enclosed).append (isNested_line _)

end

theorem isNested_flatten {parts : List Layout} (each : ∀ part ∈ parts, IsNested part) :
    IsNested parts.flatten := by
  induction parts with
  | nil => exact isNested_nil
  | cons part r ih =>
    exact (each part List.mem_cons_self).append
      (ih fun p member => each p (List.mem_cons_of_mem part member))

theorem isNested_flatMap {α : Type} {part : α → Layout} (l : List α)
    (each : ∀ a ∈ l, IsNested (part a)) : IsNested (l.flatMap part) := by
  refine isNested_flatten fun p member => ?_
  obtain ⟨a, inside, rfl⟩ := List.mem_map.mp member
  exact each a inside

theorem isNested_intercalate {between : Layout} (separates : IsNested between)
    {parts : List Layout} (each : ∀ part ∈ parts, IsNested part) :
    IsNested (between.intercalate parts) := by
  induction parts with
  | nil => exact isNested_nil
  | cons part r ih =>
    have first := each part List.mem_cons_self
    have rest := ih fun p member => each p (List.mem_cons_of_mem part member)
    cases r with
    | nil => simpa using first
    | cons next r =>
      rw [List.intercalate_cons_cons]
      exact (first.append separates).append rest

/-! ### Nesting and depth -/

section

variable {depth : Nat} {r : Layout}

theorem StaysIn.line {text : String} (stays : StaysIn depth (.line text :: r)) :
    StaysIn depth r := fun n => by
  simpa using stays (n + 1)

theorem StaysIn.enter (stays : StaysIn depth (.enter :: r)) : StaysIn (depth + 1) r := fun n => by
  have here := stays (n + 1)
  rw [List.take_succ_cons, List.count_cons_of_ne (by decide), List.count_cons_self] at here
  omega

theorem StaysIn.leave (stays : StaysIn depth (.leave :: r)) :
    ∃ less, depth = less + 1 ∧ StaysIn less r := by
  have first : 1 ≤ depth := by simpa using stays 1
  refine ⟨depth - 1, by omega, fun n => ?_⟩
  have here := stays (n + 1)
  rw [List.take_succ_cons, List.count_cons_self, List.count_cons_of_ne (by decide)] at here
  omega

end

/-- The depth after a layout tells what it has put in and taken back. -/
theorem StaysIn.depthAfter_add {depth : Nat} {layout : Layout} (stays : StaysIn depth layout) :
    depthAfter depth layout + layout.count .leave = depth + layout.count .enter := by
  induction layout generalizing depth with
  | nil => rfl
  | cons step r ih =>
    cases step with
    | line text =>
      have rest := ih stays.line
      rw [depthAfter, List.count_cons_of_ne (by simp), List.count_cons_of_ne (by simp), rest]
    | enter =>
      have rest := ih stays.enter
      rw [depthAfter, List.count_cons_of_ne (by decide), List.count_cons_self]
      omega
    | leave =>
      obtain ⟨less, rfl, later⟩ := stays.leave
      have rest := ih later
      rw [depthAfter, List.count_cons_self, List.count_cons_of_ne (by decide),
        Nat.add_sub_cancel]
      omega

theorem StaysIn.mono {layout : Layout} {less depth : Nat} (stays : StaysIn less layout)
    (le : less ≤ depth) : StaysIn depth layout := fun n =>
  (stays n).trans (Nat.add_le_add_left le _)

/-- A nested layout ends at the depth at which it starts. -/
theorem IsNested.isLevel {layout : Layout} (nested : IsNested layout) : IsLevel layout := by
  intro depth
  have counts := (nested.staysIn.mono (Nat.zero_le depth)).depthAfter_add
  have closed := nested.closed
  omega

/-! ### Lines behind a margin -/

def units (unit : String) (depth : Nat) : String := String.join (List.replicate depth unit)

/-- The lines that a layout gives from a depth on, without their ends. -/
def shown (unit : String) : Nat → Layout → List String
  | _, [] => []
  | depth, .line text :: r => indented unit depth text :: shown unit depth r
  | depth, .enter :: r => shown unit (depth + 1) r
  | depth, .leave :: r => shown unit (depth - 1) r

theorem lineTexts_eq_shown (unit : String) (depth : Nat) (layout : Layout) :
    lineTexts unit depth layout = (shown unit depth layout).map (· ++ "\n") := by
  induction layout generalizing depth with
  | nil => rfl
  | cons step r ih =>
    cases step with
    | line text =>
      have first := lineTexts_ofLines unit depth [text]
      rw [lineTexts, shown, List.map_cons, ih]
      exact congrArg (· :: _) (List.cons.inj first).1
    | enter => exact ih (depth + 1)
    | leave => exact ih (depth - 1)

theorem renderAt_eq_unlines (unit : String) (depth : Nat) (layout : Layout) :
    renderAt unit depth layout = Text.unlines (shown unit depth layout) := by
  rw [renderAt, lineTexts_eq_shown, Text.unlines]

theorem shown_append (unit : String) (depth : Nat) (a b : Layout) :
    shown unit depth (a ++ b) = shown unit depth a ++ shown unit (depthAfter depth a) b := by
  induction a generalizing depth with
  | nil => rfl
  | cons step r ih =>
    cases step with
    | line text => exact congrArg (_ :: ·) (ih depth)
    | enter => exact ih (depth + 1)
    | leave => exact ih (depth - 1)

theorem shown_ofLines (unit : String) (depth : Nat) (ls : List String) :
    shown unit depth (ofLines ls) = ls.map (indented unit depth) := by
  induction ls with
  | nil => rfl
  | cons l r ih => exact congrArg (_ :: ·) ih

theorem shown_flush (unit : String) (ls : List String) : shown unit 0 (ofLines ls) = ls := by
  rw [shown_ofLines]
  exact (List.map_congr_left fun l _ => indented_zero unit l).trans (List.map_id ls)

/-- A line deeper in is the line behind a margin. -/
theorem indented_add (unit : String) (more depth : Nat) (text : String) :
    indented unit (more + depth) text =
      Text.marginLine (units unit more) (indented unit depth text) := by
  by_cases empty : text = ""
  · simp [Text.marginLine, indented, empty]
  · have kept : ¬ text.isEmpty = true := by simpa using empty
    have filled : ¬ (String.join (List.replicate depth unit) ++ text).isEmpty = true := by
      simp [empty]
    simp only [Text.marginLine, indented, if_neg kept]
    rw [if_neg filled, units, List.replicate_add, String.join_append, String.append_assoc]

/-- From deeper in, a layout that never comes below its start gives the same lines behind a
margin. -/
theorem StaysIn.shown_add (unit : String) (more : Nat) {depth : Nat} {layout : Layout}
    (stays : StaysIn depth layout) :
    shown unit (more + depth) layout =
      (shown unit depth layout).map (Text.marginLine (units unit more)) := by
  induction layout generalizing depth with
  | nil => rfl
  | cons step r ih =>
    cases step with
    | line text => rw [shown, shown, List.map_cons, indented_add, ih stays.line]
    | enter => exact ih stays.enter
    | leave =>
      obtain ⟨less, rfl, later⟩ := stays.leave
      exact ih later

theorem shown_cons_line (unit text : String) (r : Layout) :
    shown unit 0 (.line text :: r) = text :: shown unit 0 r := by
  rw [shown, indented_zero]

/-- Behind a nested layout, lines are shown as they are by themselves. -/
theorem IsNested.shown_before {a : Layout} (first : IsNested a) (unit : String) (b : Layout) :
    shown unit 0 (a ++ b) = shown unit 0 a ++ shown unit 0 b := by
  rw [Layout.shown_append, first.isLevel]

/-- What is enclosed is shown one unit deeper in. -/
theorem IsNested.shown_enclosed {body : Layout} (inside : IsNested body) (unit : String) :
    shown unit 0 (.enter :: body ++ [.leave]) =
      (shown unit 0 body).map (Text.marginLine (units unit 1)) := by
  have deeper := inside.staysIn.shown_add unit 1
  have ends (depth : Nat) : shown unit depth [.leave] = [] := rfl
  rw [List.cons_append, shown, shown_append, ends, List.append_nil]
  exact deeper

theorem IsNested.shown_block {body : Layout} (inside : IsNested body) (unit head closer : String) :
    shown unit 0 (block head body closer) = (head ++ " \x7b") ::
      (shown unit 0 body).map (Text.marginLine (units unit 1)) ++ [closer] := by
  have whole : block head body closer =
      ofLines [head ++ " \x7b"] ++ (.enter :: body ++ [.leave]) ++ ofLines [closer] := by
    simp [block, opening, closing, ofLines]
  rw [whole, shown_append, shown_append, depthAfter_append, isLevel_ofLines,
    inside.enclosed.isLevel, shown_flush, shown_flush, inside.shown_enclosed]
  rfl

theorem IsNested.shown_scope {body : Layout} (inside : IsNested body) (unit : String) :
    shown unit 0 (scope body) =
      "\x7b" :: (shown unit 0 body).map (Text.marginLine (units unit 1)) ++ ["\x7d"] := by
  have whole : scope body =
      ofLines ["\x7b"] ++ (.enter :: body ++ [.leave]) ++ ofLines ["\x7d"] := by
    simp [scope, closing, ofLines]
  rw [whole, shown_append, shown_append, depthAfter_append, isLevel_ofLines,
    inside.enclosed.isLevel, shown_flush, shown_flush, inside.shown_enclosed]
  rfl

/-! ### Layouts in place -/

theorem StaysIn.take {depth : Nat} {layout : Layout} (stays : StaysIn depth layout) (n : Nat) :
    StaysIn depth (layout.take n) := fun k => by
  rw [List.take_take]
  exact stays _

/-- A nested layout does not come below the depth at which it starts. -/
theorem IsNested.le_depthAfter {layout : Layout} (nested : IsNested layout) (start n : Nat) :
    start ≤ depthAfter start (layout.take n) := by
  have counts :=
    ((nested.staysIn.mono (Nat.zero_le start)).take n).depthAfter_add
  have here := nested.staysIn n
  omega

/-- Behind other output, a nested layout gives its own lines with the indentation of its place. -/
theorem IsNested.shown_behind {layout : Layout} (nested : IsNested layout) (unit : String)
    (start : Nat) (before : Layout) :
    shown unit start (before ++ layout) = shown unit start before ++
      (shown unit 0 layout).map (Text.marginLine (units unit (depthAfter start before))) := by
  rw [shown_append, ← nested.staysIn.shown_add unit _, Nat.add_zero]

theorem newline_not_mem_units {unit : String} (clean : '\n' ∉ unit.toList) (depth : Nat) :
    '\n' ∉ (units unit depth).toList := by
  rw [units, String.toList_join]
  intro inside
  obtain ⟨u, member, inside⟩ := List.mem_flatMap.mp inside
  exact clean ((List.mem_replicate.mp member).2 ▸ inside)

theorem newline_not_mem_indented {unit text : String} (clean : '\n' ∉ unit.toList) (depth : Nat)
    (plain : '\n' ∉ text.toList) : '\n' ∉ (indented unit depth text).toList := by
  rw [indented]
  split
  · simp
  · rw [String.toList_append]
    exact List.not_mem_append (newline_not_mem_units clean depth) plain

/-- What indentation keeps of each line is true of all lines that are shown. -/
theorem forall_shown {p q : String → Prop} {unit : String}
    (keeps : ∀ depth text, p text → q (indented unit depth text)) {layout : Layout}
    (each : EachLine p layout) (depth : Nat) : ∀ l ∈ shown unit depth layout, q l := by
  induction layout generalizing depth with
  | nil => exact fun l member => absurd member List.not_mem_nil
  | cons step r ih =>
    have rest : EachLine p r := fun text member => each text (List.mem_cons_of_mem step member)
    cases step with
    | line text =>
      intro l member
      rcases List.mem_cons.mp member with rfl | later
      · exact keeps depth text (each text List.mem_cons_self)
      · exact ih rest depth l later
    | enter => exact ih rest (depth + 1)
    | leave => exact ih rest (depth - 1)

theorem newline_not_mem_shown {unit : String} (clean : '\n' ∉ unit.toList) {layout : Layout}
    (plain : IsPlain layout) (depth : Nat) : ∀ l ∈ shown unit depth layout, '\n' ∉ l.toList :=
  forall_shown (fun depth _ => newline_not_mem_indented clean depth) plain depth

theorem isUnbroken_indented {unit text : String} (whole : Text.IsUnbroken unit.toList)
    (depth : Nat) (unbroken : Text.IsUnbroken text.toList) :
    Text.IsUnbroken (indented unit depth text).toList := by
  intro c member
  rw [indented] at member
  split at member
  · simp at member
  · rw [String.toList_append, String.toList_join, List.mem_append] at member
    rcases member with margin | own
    · obtain ⟨u, copy, inside⟩ := List.mem_flatMap.mp margin
      exact whole c ((List.mem_replicate.mp copy).2 ▸ inside)
    · exact unbroken c own

/-- Lines in one piece are found again in the output. -/
theorem lines_renderAt {unit : String} (whole : Text.IsUnbroken unit.toList) {layout : Layout}
    (unbroken : EachLine (fun text => Text.IsUnbroken text.toList) layout) (depth : Nat) :
    Text.lines (renderAt unit depth layout) = shown unit depth layout := by
  rw [renderAt_eq_unlines]
  exact Text.lines_unlines
    (forall_shown (fun depth _ => isUnbroken_indented whole depth) unbroken depth)

/-- The text of a layout of whole lines is the same wherever it stands, up to a margin. -/
theorem IsNested.renderAt_behind {layout : Layout} (nested : IsNested layout)
    (plain : IsPlain layout) {unit : String} (clean : '\n' ∉ unit.toList) (start : Nat)
    (before : Layout) :
    renderAt unit start (before ++ layout) = renderAt unit start before ++
      Text.withMargin (units unit (depthAfter start before)) (renderAt unit 0 layout) := by
  have margin := Text.withMargin_unlines (units unit (depthAfter start before))
    (newline_not_mem_shown clean plain 0)
  rw [renderAt_eq_unlines, renderAt_eq_unlines, renderAt_eq_unlines, nested.shown_behind,
    Text.unlines_append, margin]

/-- A text is copied line by line. -/
theorem shown_copied (unit : String) (start : Nat) (before : Layout) (text : String) :
    shown unit start (before ++ ofText text) = shown unit start before ++
      (Text.lines text).map (Text.marginLine (units unit (depthAfter start before))) := by
  have behind := (onlyLines_ofLines (Text.lines text)).isNested.shown_behind unit start before
  rwa [shown_flush] at behind

/-- The text of a layout that is copied line by line is the same where it is copied to, up to a
margin. -/
theorem renderAt_copied {layout : Layout} {inner text : String} {depth : Nat}
    (made : renderAt inner depth layout = text) (noReturn : '\r' ∉ text.toList) (unit : String)
    (start : Nat) (before : Layout) :
    renderAt unit start (before ++ ofText text) = renderAt unit start before ++
      Text.withMargin (units unit (depthAfter start before)) text := by
  have margin := Text.withMargin_unlines (units unit (depthAfter start before))
    (fun l (member : l ∈ Text.lines text) => Text.newline_not_mem_lines member)
  rw [renderAt_eq_unlines] at made
  have whole : Text.unlines (Text.lines text) = text := by
    rw [← made] at noReturn ⊢
    exact Text.unlines_lines_unlines noReturn
  rw [renderAt_eq_unlines, renderAt_eq_unlines, shown_copied, Text.unlines_append, ← margin, whole]

/-- A text without carriage returns that is copied to the margin stands there letter for letter. -/
theorem isInfix_renderAt {a b : Layout} {text : String} (level : depthAfter 0 a = 0)
    (noReturn : '\r' ∉ text.toList) (unit : String) :
    text.toList <:+: (renderAt unit 0 (a ++ ofText text ++ b)).toList := by
  have lines : shown unit 0 (ofText text) = Text.lines text := shown_flush unit (Text.lines text)
  rw [renderAt_eq_unlines, List.append_assoc, shown_append, shown_append, level, lines,
    Text.toList_unlines_append, Text.toList_unlines_append]
  have front := Text.isPrefix_unlines_lines noReturn
  exact List.infix_append_of_infix_right (front.trans (List.prefix_append _ _)).isInfix

end Layout

end ScriptGlue.Code
