import Mathlib.Data.List.DropRight
import ScriptGlue.Proofs.Text.Lines
import ScriptGlue.Proofs.Text.Squeeze
import ScriptGlue.Table.Body

/-!
# Lines of a table body

A body without comments and directives is cut into the lines that hold more than blanks. How it is
laid out matters only where a line feed stands: blanks around a line are dropped, and so are lines
of blanks.
-/
namespace ScriptGlue

namespace TableLines

/-- Whether no comment starts in a text. -/
def isCommentFree : List Char → Bool
  | [] => true
  | c :: r => !(c == '/' && (r.head? == some '/' || r.head? == some '*')) && isCommentFree r

/-- What becomes of one line: what stands between the blanks at its ends, if there is anything. -/
def keptLine (line : Nat) (s : List Char) : List SourceLine :=
  let inner := (s.dropWhile Text.isBlank).rdropWhile Text.isBlank
  if inner = [] then [] else [⟨String.ofList inner, line⟩]

/-- The lines that hold more than blanks, where none holds a comment. Every line feed counts. -/
def textLines (line : Nat) (s : List Char) : List SourceLine :=
  ((s.splitOn '\n').zipIdx line).flatMap fun (l, n) => keptLine n l

/-! ### Comments and directives -/

/-- Comments are dropped and nothing is put in their place. -/
theorem mem_of_mem_stripComments {inBlock : Bool} {s : List Char} {c : Char}
    (member : c ∈ (stripComments inBlock s).2) : c ∈ s := by
  fun_induction stripComments inBlock s with
  | case1 => exact member
  | case2 r ih => exact List.mem_cons_of_mem _ (List.mem_cons_of_mem _ (ih member))
  | case3 d r other ih => exact List.mem_cons_of_mem _ (ih member)
  | case4 r ih => exact List.mem_cons_of_mem _ (List.mem_cons_of_mem _ (ih member))
  | case5 => cases member
  | case6 d r block line now kept stripped ih =>
    rw [stripped] at ih
    rcases List.mem_cons.mp member with rfl | member
    · exact List.mem_cons_self
    · exact List.mem_cons_of_mem _ (ih member)

theorem isCommentFree_append {a b : List Char} (free : isCommentFree (a ++ b) = true) :
    isCommentFree a = true ∧ isCommentFree b = true := by
  induction a with
  | nil => exact ⟨rfl, free⟩
  | cons c r ih =>
    rw [List.cons_append, isCommentFree, Bool.and_eq_true] at free
    obtain ⟨first, rest⟩ := ih free.2
    refine ⟨?_, rest⟩
    rw [isCommentFree, first, Bool.and_true]
    cases r with
    | nil => simp
    | cons d r => exact free.1

/-- What has no slash starts no comment. -/
theorem isCommentFree_flat {a : List Char} (flat : '/' ∉ a) (s : List Char) :
    isCommentFree (a ++ s) = isCommentFree s := by
  induction a with
  | nil => rfl
  | cons c r ih =>
    have here : (c == '/') = false := beq_false_of_ne fun same => flat (by simp [same])
    have later := ih fun member => flat (List.mem_cons_of_mem _ member)
    rw [List.cons_append, isCommentFree, here, later]
    rfl

/-! ### Lines -/

theorem keptLine_trim (line : Nat) (s : List Char) : keptLine line s =
    if Text.trimChars s = [] then [] else [⟨String.ofList (Text.trimChars s), line⟩] := rfl

theorem textLines_nil (line : Nat) : textLines line [] = [] := rfl

theorem textLines_line {a : List Char} (clean : '\n' ∉ a) (b : List Char) (line : Nat) :
    textLines line (a ++ '\n' :: b) = keptLine line a ++ textLines (line + 1) b := by
  rw [textLines, List.splitOn_append_cons_self_of_not_mem clean, List.zipIdx_cons,
    List.flatMap_cons, textLines]

theorem textLines_last {a : List Char} (clean : '\n' ∉ a) (line : Nat) :
    textLines line a = keptLine line a := by
  rw [textLines, List.splitOn_eq_singleton clean]
  exact List.append_nil _

/-- The first line is kept or dropped, and the others are numbered after it. -/
theorem filter_numbered_cons (line : Nat) (l : List Char) (ls : List (List Char)) :
    (numbered line (l :: ls)).filter (!·.text.isEmpty) =
      keptLine line l ++ (numbered (line + 1) ls).filter (!·.text.isEmpty) := by
  rw [numbered, List.filter_cons, keptLine_trim]
  by_cases empty : Text.trimChars l = []
  · simp [empty]
  · simp [empty]

/-- A return before a line feed is a blank at the end of the line. -/
theorem filter_numbered_lineChars (s : List Char) (line : Nat) :
    (numbered line (Text.lineChars s)).filter (!·.text.isEmpty) = textLines line s := by
  induction s using Text.line_induction generalizing line with
  | last a clean =>
    by_cases nothing : a = []
    · rw [nothing, Text.lineChars_nil]
      rfl
    · rw [Text.lineChars_last clean nothing, filter_numbered_cons, textLines_last clean, numbered,
        List.filter_nil, List.append_nil]
  | line a b clean ih =>
    rw [Text.lineChars_line clean, filter_numbered_cons, ih, textLines_line clean, keptLine_trim,
      Text.trimChars_dropReturn, ← keptLine_trim]

/-- A blank in front of a text changes no line but the numbers. -/
theorem textLines_blank {c : Char} (blank : Text.isBlank c = true) (s : List Char) (line : Nat) :
    ∃ n, textLines line (c :: s) = textLines n s := by
  by_cases feed : c = '\n'
  · refine ⟨line + 1, ?_⟩
    rw [feed]
    exact textLines_line (a := []) List.not_mem_nil s line
  · refine ⟨line, ?_⟩
    have kept (a : List Char) : keptLine line (c :: a) = keptLine line a := by
      rw [keptLine_trim, keptLine_trim, Text.trimChars_cons blank]
    have clean {a : List Char} (clean : '\n' ∉ a) : '\n' ∉ c :: a := by
      simp [Ne.symm feed, clean]
    by_cases broken : '\n' ∈ s
    · obtain ⟨a, b, rfl, first⟩ := List.eq_append_cons_of_mem broken
      rw [← List.cons_append, textLines_line (clean first), textLines_line first, kept]
    · rw [textLines_last (clean broken), textLines_last broken, kept]

theorem textLines_blanks {gap : List Char} (blank : ∀ c ∈ gap, Text.isBlank c = true)
    (s : List Char) (line : Nat) : ∃ n, textLines line (gap ++ s) = textLines n s := by
  induction gap generalizing line with
  | nil => exact ⟨line, rfl⟩
  | cons c r ih =>
    obtain ⟨n, first⟩ := textLines_blank (blank c List.mem_cons_self) (r ++ s) line
    obtain ⟨m, rest⟩ := ih (fun d member => blank d (List.mem_cons_of_mem _ member)) n
    exact ⟨m, first.trans rest⟩

/-- A text as it stands on a line: no line feed, and no blank at its ends. -/
structure IsLine (t : List Char) : Prop where
  nonempty : t ≠ []
  unbroken : '\n' ∉ t
  head : ∀ c ∈ t.head?, Text.isBlank c = false
  last : ∀ c ∈ t.getLast?, Text.isBlank c = false

namespace IsLine

variable {t : List Char} (isLine : IsLine t)
include isLine

theorem keptLine_eq {gap : List Char} (blank : ∀ c ∈ gap, Text.isBlank c = true) (line : Nat) :
    keptLine line (t ++ gap) = [⟨String.ofList t, line⟩] := by
  have trimmed : Text.trimChars (t ++ gap) = t :=
    Text.trimChars_append (a := []) (by simp) blank isLine.head isLine.last
  rw [keptLine_trim, trimmed, if_neg isLine.nonempty]

/-- Blanks with a line feed among them end a line. -/
theorem textLines_feed {gap : List Char} (blank : ∀ c ∈ gap, Text.isBlank c = true)
    (feed : '\n' ∈ gap) (s : List Char) (line : Nat) :
    ∃ n, textLines line (t ++ (gap ++ s)) = ⟨String.ofList t, line⟩ :: textLines n s := by
  obtain ⟨a, b, rfl, clean⟩ := List.eq_append_cons_of_mem feed
  have before : ∀ c ∈ a, Text.isBlank c = true := fun c member =>
    blank c (List.mem_append_left _ member)
  have after : ∀ c ∈ b, Text.isBlank c = true := fun c member =>
    blank c (List.mem_append_right _ (List.mem_cons_of_mem _ member))
  have unbroken : '\n' ∉ t ++ a := by simp [isLine.unbroken, clean]
  obtain ⟨n, rest⟩ := textLines_blanks after s (line + 1)
  refine ⟨n, ?_⟩
  have order : t ++ (a ++ '\n' :: b ++ s) = t ++ a ++ '\n' :: (b ++ s) := by simp
  rw [order, textLines_line unbroken, isLine.keptLine_eq before, rest]
  rfl

/-- So does the end of the text. -/
theorem textLines_end {gap : List Char} (blank : ∀ c ∈ gap, Text.isBlank c = true) (line : Nat) :
    textLines line (t ++ gap) = [⟨String.ofList t, line⟩] := by
  by_cases feed : '\n' ∈ gap
  · obtain ⟨n, lines⟩ := isLine.textLines_feed blank feed [] line
    rw [List.append_nil] at lines
    rw [lines, textLines_nil]
  · have unbroken : '\n' ∉ t ++ gap := by simp [isLine.unbroken, feed]
    rw [textLines_last unbroken, isLine.keptLine_eq blank]

end IsLine

/-! ### Directives -/

theorem text_of_mem_numbered {line : Nat} {ls : List (List Char)} {l : SourceLine}
    (member : l ∈ numbered line ls) : ∃ s ∈ ls, l.text.toList = Text.trimChars s := by
  induction ls generalizing line with
  | nil => cases member
  | cons s r ih =>
    rcases List.mem_cons.mp member with rfl | member
    · exact ⟨s, List.mem_cons_self, String.toList_ofList⟩
    · obtain ⟨t, inside, text⟩ := ih member
      exact ⟨t, List.mem_cons_of_mem _ inside, text⟩

/-- A line is what stands between the blanks at the ends of a part of the text. -/
theorem text_of_mem_textLines {s : List Char} {line : Nat} {l : SourceLine}
    (member : l ∈ textLines line s) : ∃ t, t <:+: s ∧ l.text.toList = Text.trimChars t := by
  rw [← filter_numbered_lineChars] at member
  obtain ⟨t, inside, text⟩ := text_of_mem_numbered (List.mem_filter.mp member).1
  exact ⟨t, Text.infix_of_mem_lineChars inside, text⟩

/-- Lines of a text without `#` are no directives. -/
theorem isDirective_of_mem_textLines {s : List Char} (plain : '#' ∉ s) {line : Nat}
    {l : SourceLine} (member : l ∈ textLines line s) : isDirective l = false := by
  obtain ⟨t, inside, text⟩ := text_of_mem_textLines member
  rw [isDirective, Text.startsWith, Bool.eq_false_iff]
  intro starts
  have first : '#' ∈ l.text.toList :=
    (List.isPrefixOf_iff_prefix.mp starts).subset (by decide)
  rw [text] at first
  exact plain (inside.subset (Text.mem_of_mem_trimChars first))

/-- A body is joined from its lines, where none is a directive. -/
theorem ofBody_of_content {body : String} {line : Nat} {s : List Char}
    (content : contentLines body line = textLines line s) (plain : '#' ∉ s) :
    ofBody body line = ⟨joinOpen none (textLines line s), []⟩ := by
  have none : ∀ l ∈ textLines line s, isDirective l = false := fun l member =>
    isDirective_of_mem_textLines plain member
  rw [ofBody]
  simp only [content]
  rw [List.filter_eq_self.mpr (by simpa using none),
    List.filter_eq_nil_iff.mpr (by simpa using none)]

end TableLines

end ScriptGlue
