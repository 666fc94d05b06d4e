import Mathlib.Data.List.Forall2
import Mathlib.Data.List.Induction
import ScriptGlue.Proofs.Table.Comments
import ScriptGlue.Proofs.Table.Joining

/-!
# Groups of lines

A table body is read in one pass that carries two things from line to line: whether a block comment
is open, and what has been joined so far. Nothing of the body is lost and nothing doubled on the
way: what is left of the body without comments falls into lines, a line is a directive or belongs to
one group, and each group makes one declaration.
-/
namespace ScriptGlue

namespace TableLines

open Region (kept ofOpen)

/-! ### Groups -/

/-- How many more parentheses lines open than they close. -/
def balance : List SourceLine → Int
  | [] => 0
  | l :: r => (l.text.toList.count '(' : Int) - l.text.toList.count ')' + balance r

/-- A declaration that is joined from a group of lines: the group goes on as long as it leaves a
parenthesis open. -/
structure JoinedFrom (group : List SourceLine) (d : SourceLine) : Prop where
  nonempty : group ≠ []
  text_eq : d.text = " ".intercalate (group.map (·.text))
  line_eq : group.head?.map (·.line) = some d.line
  open_before : ∀ front, front <+: group → front ≠ [] → front ≠ group → 0 < balance front

def groupLine? : List SourceLine → Option SourceLine
  | [] => none
  | l :: r => some ⟨" ".intercalate ((l :: r).map (·.text)), l.line⟩

theorem groupLine?_concat (group : List SourceLine) (l : SourceLine) :
    groupLine? (group ++ [l]) = some (joinLine (groupLine? group) l) := by
  cases group with
  | nil => simp [groupLine?, joinLine]
  | cons m r =>
    have joined : " ".intercalate ((m :: r ++ [l]).map (·.text)) =
        " ".intercalate ((m :: r).map (·.text)) ++ " " ++ l.text := by
      rw [List.map_append, List.map_singleton, String.intercalate_append_of_ne_nil (by simp)
        (by simp), String.intercalate_singleton]
    rw [List.cons_append, groupLine?, ← List.cons_append, joined]
    rfl

theorem parenBalance_eq (s : List Char) :
    parenBalance s = (s.count '(' : Int) - s.count ')' := by
  induction s with
  | nil => rfl
  | cons c r ih =>
    rw [parenBalance_cons, ih, List.count_cons, List.count_cons]
    by_cases opens : c = '('
    · simp [opens]
      omega
    · by_cases closes : c = ')'
      · simp [closes]
        omega
      · simp [opens, closes]

theorem balance_concat (group : List SourceLine) (l : SourceLine) :
    balance (group ++ [l]) = balance group + parenBalance l.text.toList := by
  rw [parenBalance_eq]
  induction group with
  | nil => simp [balance]
  | cons m r ih =>
    rw [List.cons_append, balance, balance, ih]
    omega

/-- A joined line opens what its group opens. -/
theorem parenBalance_groupLine? {group : List SourceLine} {d : SourceLine}
    (made : groupLine? group = some d) : parenBalance d.text.toList = balance group := by
  induction group using List.reverseRecOn generalizing d with
  | nil => cases made
  | append_singleton group l ih =>
    rw [groupLine?_concat] at made
    cases made
    rw [balance_concat]
    cases held : groupLine? group with
    | none =>
      cases group with
      | nil => simp [joinLine, balance]
      | cons m r => cases held
    | some p =>
      have spelled : (joinLine (some p) l).text.toList = p.text.toList ++ ' ' :: l.text.toList := by
        simp [joinLine]
        rfl
      rw [spelled, parenBalance_append, ih held, parenBalance_cons]
      simp

/-- While the prefixes of a group leave parentheses open, the next line goes into the group. -/
theorem joinOpen_groups (held ls : List SourceLine)
    (opens : ∀ front, front <+: held → front ≠ [] → 0 < balance front) :
    ∃ groups : List (List SourceLine), groups.flatten = held ++ ls ∧
      List.Forall₂ JoinedFrom groups (joinOpen (groupLine? held) ls) ∧
        ∀ group ∈ groups.dropLast, balance group ≤ 0 := by
  induction ls generalizing held with
  | nil =>
    cases held with
    | nil => exact ⟨[], rfl, .nil, by simp⟩
    | cons l r =>
      have joined : JoinedFrom (l :: r) ⟨" ".intercalate ((l :: r).map (·.text)), l.line⟩ :=
        ⟨by simp, rfl, rfl, fun front isPrefix some _ => opens front isPrefix some⟩
      exact ⟨[l :: r], by simp, .cons joined .nil, by simp⟩
  | cons l r ih =>
    have made := groupLine?_concat held l
    have total := parenBalance_groupLine? made
    have before : ∀ front, front <+: held ++ [l] → front ≠ [] → front ≠ held ++ [l] →
        0 < balance front := fun front isPrefix some proper =>
      opens front ((List.prefix_concat_iff.mp isPrefix).resolve_left proper) some
    rw [joinOpen, total]
    -- the balance with the next line decides whether that line ends the group
    by_cases goesOn : 0 < balance (held ++ [l])
    · have opens' : ∀ front, front <+: held ++ [l] → front ≠ [] → 0 < balance front := by
        intro front isPrefix some
        by_cases whole : front = held ++ [l]
        · rwa [whole]
        · exact before front isPrefix some whole
      obtain ⟨groups, flat, joined, closed⟩ := ih _ opens'
      rw [made] at joined
      refine ⟨groups, by simpa using flat, ?_, closed⟩
      rwa [if_pos goesOn]
    · obtain ⟨groups, flat, joined, closed⟩ := ih [] (by simp)
      have here : JoinedFrom (held ++ [l]) (joinLine (groupLine? held) l) := by
        cases held with
        | nil => exact ⟨by simp, by simp [groupLine?, joinLine], rfl, before⟩
        | cons m t =>
          have fields := Option.some.inj made
          exact ⟨by simp, by rw [← fields]; rfl, by rw [← fields]; rfl, before⟩
      refine ⟨(held ++ [l]) :: groups, by simp [flat], ?_, fun group member => ?_⟩
      · rw [if_neg goesOn]
        exact .cons here joined
      · cases groups with
        | nil => simp at member
        | cons g gs =>
          rw [List.dropLast_cons_cons] at member
          rcases List.mem_cons.mp member with rfl | member
          · omega
          · exact closed group member

theorem isDirective_iff (l : SourceLine) :
    isDirective l = true ↔ l.text.toList.head? = some '#' := by
  rw [isDirective, Text.startsWith]
  cases l.text.toList with
  | nil => simp
  | cons c r =>
    have same : ('#' == c) = true ↔ c = '#' := by rw [beq_iff_eq, eq_comm]
    simpa using same

/-- Directives are skipped, and the other lines are joined. -/
theorem ofBody_lines (body : String) (line : Nat) : ofBody body line =
    ⟨joinOpen none ((textLines line (kept .code body.toList)).filter
        (·.text.toList.head? ≠ some '#')),
      (textLines line (kept .code body.toList)).filter (·.text.toList.head? = some '#')⟩ := by
  have directive : isDirective = fun l => decide (l.text.toList.head? = some '#') := by
    funext l
    rw [Bool.eq_iff_iff, isDirective_iff, decide_eq_true_iff]
  rw [ofBody]
  simp only [contentLines_kept, directive, decide_not]

/-- The lines of what is left of a body without comments are its directives and the members of
groups, in order. A group makes one declaration: its lines are joined by spaces, and it ends with
the first line that leaves no parenthesis open, or with the body. -/
theorem clean_groups (body : String) (firstLine : Nat) :
    (clean body firstLine).value.skipped =
        (textLines firstLine (kept .code body.toList)).filter (·.text.toList.head? = some '#') ∧
      ∃ groups : List (List SourceLine),
        groups.flatten = (textLines firstLine (kept .code body.toList)).filter
          (·.text.toList.head? ≠ some '#') ∧
        List.Forall₂ JoinedFrom groups (clean body firstLine).value.declarations ∧
        ∀ group ∈ groups.dropLast, balance group ≤ 0 := by
  have cleaned : (clean body firstLine).value = ofBody body firstLine := rfl
  rw [cleaned, ofBody_lines]
  exact ⟨rfl, joinOpen_groups [] _ (by simp)⟩

/-- A directive may interrupt a group, and the end of the body may cut one. -/
example : (clean "/* a\n */ int (*f)( int b,\n#if 1\n int c ); // d\nint (*g)(" 4).value =
    ⟨[⟨"int (*f)( int b, int c );", 5⟩, ⟨"int (*g)(", 8⟩], [⟨"#if 1", 6⟩]⟩ := by
  decide +kernel

end TableLines

end ScriptGlue
