import Mathlib.Data.List.Basic
import ScriptGlue.Code.Native
import ScriptGlue.Proofs.Text.Lines

/-!
# Rendered layouts

The output of a layout is the output of its parts as long as each part takes back the indentation
that it has put in. Lists and functions do, and their lines can be told from what they hold.
-/
namespace ScriptGlue.Code

namespace Layout

theorem lineTexts_append (unit : String) (depth : Nat) (a b : Layout) :
    lineTexts unit depth (a ++ b) =
      lineTexts unit depth a ++ lineTexts unit (depthAfter depth a) b := by
  induction a generalizing depth with
  | nil => rfl
  | cons step r ih =>
    rw [List.cons_append]
    cases step with
    | line text => rw [lineTexts, lineTexts, depthAfter, ih, List.cons_append]
    | enter => rw [lineTexts, lineTexts, depthAfter, ih]
    | leave => rw [lineTexts, lineTexts, depthAfter, ih]

theorem depthAfter_append (depth : Nat) (a b : Layout) :
    depthAfter depth (a ++ b) = depthAfter (depthAfter depth a) b := by
  induction a generalizing depth with
  | nil => rfl
  | cons step r ih => cases step <;> exact ih _

/-- A layout that ends at the depth it starts at. -/
def IsLevel (layout : Layout) : Prop := ∀ depth, depthAfter depth layout = depth

/-- The lines of a part stand by themselves behind a part that is level. -/
theorem IsLevel.lineTexts_append {a : Layout} (level : IsLevel a) (unit : String) (depth : Nat)
    (b : Layout) :
    lineTexts unit depth (a ++ b) = lineTexts unit depth a ++ lineTexts unit depth b := by
  rw [Layout.lineTexts_append, level]

theorem IsLevel.append {a b : Layout} (first : IsLevel a) (second : IsLevel b) :
    IsLevel (a ++ b) := by
  intro depth
  rw [depthAfter_append, first, second]

/-! ### Lines -/

def ofLines (ls : List String) : Layout := ls.map .line

theorem isLevel_ofLines (ls : List String) : IsLevel (ofLines ls) := by
  intro depth
  induction ls with
  | nil => rfl
  | cons l r ih => exact ih

/-- A line as it is shown, without its end. -/
def indented (unit : String) (depth : Nat) (text : String) : String :=
  if text.isEmpty then "" else String.join (List.replicate depth unit) ++ text

theorem lineTexts_ofLines (unit : String) (depth : Nat) (ls : List String) :
    lineTexts unit depth (ofLines ls) = (ls.map (indented unit depth)).map (· ++ "\n") := by
  induction ls with
  | nil => rfl
  | cons l r ih =>
    have first : lineText unit depth l = indented unit depth l ++ "\n" := by
      rw [lineText, indented]
      split <;> rfl
    rw [ofLines, List.map_cons, lineTexts, first, ← ofLines, ih]
    rfl

@[simp] theorem indented_zero (unit text : String) : indented unit 0 text = text := by
  rw [indented]
  split
  · rename_i empty
    exact (String.isEmpty_iff.mp empty).symm
  · exact String.empty_append

theorem lineTexts_flush (unit : String) (ls : List String) :
    lineTexts unit 0 (ofLines ls) = ls.map (· ++ "\n") := by
  rw [lineTexts_ofLines]
  simp

/-- Lines are indented once in a block. -/
theorem indented_one {text : String} (filled : text ≠ "") :
    indented defaultUnit 1 text = "  " ++ text := by
  rw [indented, if_neg (by simpa using filled)]
  rfl

def blockLines (unit head : String) (body : List String) (closer : String) : List String :=
  (head ++ " \x7b") :: body.map (indented unit 1) ++ [closer]

theorem isLevel_block (head : String) (body : List String) (closer : String) :
    IsLevel (block head (ofLines body) closer) := by
  intro depth
  rw [block, depthAfter_append, depthAfter_append]
  change depthAfter (depthAfter (depth + 1) (ofLines body)) (closing closer) = depth
  rw [isLevel_ofLines]
  rfl

/-- Lines between an opening and a closing part are indented once. -/
theorem lineTexts_enclosed {opens : Layout} (inside : depthAfter 0 opens = 1) (unit : String)
    (body : List String) (closer : String) :
    lineTexts unit 0 (opens ++ ofLines body ++ closing closer) =
      lineTexts unit 0 opens ++ (body.map (indented unit 1) ++ [closer]).map (· ++ "\n") := by
  have closes : lineTexts unit 1 (closing closer) = [closer ++ "\n"] :=
    lineTexts_flush unit [closer]
  rw [Layout.lineTexts_append, Layout.lineTexts_append, depthAfter_append, inside, isLevel_ofLines,
    closes, lineTexts_ofLines, List.map_append, List.append_assoc]
  rfl

theorem lineTexts_block (unit head : String) (body : List String) (closer : String) :
    lineTexts unit 0 (block head (ofLines body) closer) =
      (blockLines unit head body closer).map (· ++ "\n") := by
  have opens : lineTexts unit 0 (opening head) = [head ++ " \x7b" ++ "\n"] :=
    lineTexts_flush unit [head ++ " \x7b"]
  rw [block, lineTexts_enclosed rfl, opens]
  rfl

/-- A part that is level and has these lines. -/
structure Shows (layout : Layout) (ls : List String) : Prop where
  level : IsLevel layout
  lines : lineTexts defaultUnit 0 layout = ls.map (· ++ "\n")

theorem shows_ofLines (ls : List String) : Shows (ofLines ls) ls :=
  ⟨isLevel_ofLines ls, lineTexts_flush defaultUnit ls⟩

theorem Shows.append {a b : Layout} {as bs : List String} (first : Shows a as)
    (second : Shows b bs) : Shows (a ++ b) (as ++ bs) where
  level := first.level.append second.level
  lines := by
    rw [first.level.lineTexts_append, first.lines, second.lines, List.map_append]

theorem shows_flatMap {α : Type} {part : α → Layout} {ls : α → List String} (l : List α)
    (each : ∀ a ∈ l, Shows (part a) (ls a)) : Shows (l.flatMap part) (l.flatMap ls) := by
  induction l with
  | nil => exact shows_ofLines []
  | cons a r ih =>
    exact (each a List.mem_cons_self).append
      (ih fun b member => each b (List.mem_cons_of_mem a member))

/-- What is shown is what comes out. -/
theorem Shows.render {layout : Layout} {ls : List String} (shows_ : Shows layout ls) :
    layout.render = Text.unlines ls := by
  rw [Layout.render, renderAt, shows_.lines, Text.unlines]

end Layout

/-! ### Lists -/

namespace ListDef

/-- Entries one a line, with a comma behind each but the last. -/
def rows (entries : List String) : List String :=
  entries.dropLast.map (· ++ ",") ++ entries.getLast?.toList

theorem itemLines_eq (entries : List String) :
    itemLines (entries.map fun e => ⟨e, none⟩) = Layout.ofLines (rows entries) := by
  induction entries with
  | nil => rfl
  | cons e r ih =>
    cases r with
    | nil =>
      have spelled : itemLine "" ⟨e, none⟩ = .line (e ++ "") := rfl
      rw [List.map_singleton, itemLines, spelled, String.append_empty]
      rfl
    | cons f r =>
      rw [List.map_cons] at ih
      rw [List.map_cons, List.map_cons, itemLines, ih, rows, rows, List.dropLast_cons_cons,
        List.map_cons, List.getLast?_cons_cons]
      · rfl
      · simp

section

variable {d : ListDef} {entries : List String} (items : d.items = entries.map fun e => ⟨e, none⟩)
include items

theorem isLevel_layout : Layout.IsLevel d.layout := by
  rw [layout, items, itemLines_eq]
  exact Layout.isLevel_block _ _ _

/-- The lines of a list of entries without remarks. -/
theorem lineTexts_layout (unit : String) :
    Layout.lineTexts unit 0 d.layout =
      (Layout.blockLines unit (d.head ++ " =") (rows entries) "\x7d;").map (· ++ "\n") := by
  rw [layout, items, itemLines_eq, Layout.lineTexts_block]
  rfl

theorem shows_layout : Layout.Shows d.layout
    (Layout.blockLines Layout.defaultUnit (d.head ++ " =") (rows entries) "\x7d;") :=
  ⟨isLevel_layout items, lineTexts_layout items Layout.defaultUnit⟩

end

end ListDef

def includeLine (h : String) : String :=
  if Text.startsWith h "<" then s!"#include {h}" else s!"#include \"{h}\""

theorem includes_eq (headers : List String) :
    includes headers = Layout.ofLines (headers.map includeLine) := by
  rw [includes, Layout.ofLines, List.map_map]
  refine List.map_congr_left fun h _ => ?_
  rw [Function.comp_apply, includeLine]
  split <;> rfl

/-! ### Functions -/

/-- Statements in the body of a function: line by line, two spaces in. -/
def insideLines (statements : List String) : List String :=
  statements.flatMap fun s =>
    if s = "" then [""] else (Text.lines s).map fun l => if l = "" then "" else "  " ++ l

theorem indented_bodyLines (statements : List String) :
    (statements.flatMap bodyLines).map (Layout.indented Layout.defaultUnit 1) =
      insideLines statements := by
  have row (l : String) :
      Layout.indented Layout.defaultUnit 1 l = if l = "" then "" else "  " ++ l := by
    split
    · rename_i empty
      rw [empty]
      rfl
    · rename_i filled
      exact Layout.indented_one filled
  rw [insideLines, List.map_flatMap]
  refine List.flatMap_congr fun s _ => ?_
  rw [bodyLines]
  by_cases empty : s = ""
  · rw [if_pos (by simpa using empty), if_pos empty]
    rfl
  · rw [if_neg (by simpa using empty), if_neg empty]
    exact List.map_congr_left fun l _ => row l

namespace FunctionDef

def shown (unit : String) (f : FunctionDef) : List String :=
  f.comments.map ("// " ++ ·) ++
    if f.braceOnNewLine then
      [f.signature, "\x7b"] ++ f.body.map (Layout.indented unit 1) ++ ["\x7d"]
    else Layout.blockLines unit f.signature f.body "\x7d"

theorem layout_comments (f : FunctionDef) : f.comments.map (fun c => Step.line ("// " ++ c)) =
    Layout.ofLines (f.comments.map ("// " ++ ·)) := by
  rw [Layout.ofLines, List.map_map]
  rfl

theorem lineTexts_layout (unit : String) (f : FunctionDef) :
    Layout.lineTexts unit 0 f.layout = (f.shown unit).map (· ++ "\n") := by
  rw [layout, shown, layout_comments, (Layout.isLevel_ofLines _).lineTexts_append,
    Layout.lineTexts_flush, List.map_append]
  congr 1
  split
  · have opens : Layout.lineTexts unit 0 [.line f.signature, .line "\x7b", .enter] =
        [f.signature ++ "\n", "\x7b" ++ "\n"] :=
      Layout.lineTexts_flush unit [f.signature, "\x7b"]
    have inside : Layout.depthAfter 0 [.line f.signature, .line "\x7b", .enter] = 1 := rfl
    have whole := Layout.lineTexts_enclosed inside unit f.body "\x7d"
    rw [opens] at whole
    exact whole
  · exact Layout.lineTexts_block unit f.signature f.body "\x7d"

theorem isLevel_layout (f : FunctionDef) : Layout.IsLevel f.layout := by
  rw [layout, layout_comments]
  refine (Layout.isLevel_ofLines _).append ?_
  split
  · intro depth
    have opens : Layout.depthAfter depth [.line f.signature, .line "\x7b", .enter] =
        depth + 1 := rfl
    change Layout.depthAfter depth
      ([.line f.signature, .line "\x7b", .enter] ++ Layout.ofLines f.body ++
        Layout.closing "\x7d") = depth
    rw [Layout.depthAfter_append, Layout.depthAfter_append, opens, Layout.isLevel_ofLines]
    rfl
  · exact Layout.isLevel_block _ _ _

theorem shows_layout (f : FunctionDef) : Layout.Shows f.layout (f.shown Layout.defaultUnit) :=
  ⟨f.isLevel_layout, lineTexts_layout Layout.defaultUnit f⟩

theorem source_eq (f : FunctionDef) : f.source = Text.unlines (f.shown Layout.defaultUnit) :=
  f.shows_layout.render

/-- A function without comments is shown in lines if it is given in lines. -/
theorem isUnbroken_shown {f : FunctionDef} (plain : f.comments = [])
    (signature : Text.IsUnbroken f.signature.toList)
    (body : ∀ l ∈ f.body, Text.IsUnbroken l.toList) :
    ∀ l ∈ f.shown Layout.defaultUnit, Text.IsUnbroken l.toList := by
  have marks : Text.IsUnbroken " \x7b".toList ∧ Text.IsUnbroken "\x7b".toList ∧
      Text.IsUnbroken "\x7d".toList ∧ Text.IsUnbroken "".toList := by
    decide
  have rows : ∀ l ∈ f.body.map (Layout.indented Layout.defaultUnit 1),
      Text.IsUnbroken l.toList := by
    intro l member
    obtain ⟨t, inside, rfl⟩ := List.mem_map.mp member
    by_cases empty : t = ""
    · rw [empty]
      exact marks.2.2.2
    · rw [Layout.indented_one empty, String.toList_append]
      exact Text.IsUnbroken.append (by decide) (body t inside)
  intro l member
  rw [shown, plain, List.map_nil, List.nil_append] at member
  split at member
  · simp only [List.mem_append, List.mem_cons, List.not_mem_nil, or_false] at member
    rcases member with ((rfl | rfl) | inside) | rfl
    · exact signature
    · exact marks.2.1
    · exact rows l inside
    · exact marks.2.2.1
  · simp only [Layout.blockLines, List.mem_append, List.mem_cons, List.not_mem_nil,
      or_false] at member
    rcases member with (rfl | inside) | rfl
    · rw [String.toList_append]
      exact signature.append marks.1
    · exact rows l inside
    · exact marks.2.2.1

/-- The signature of a function in blocks starts one of its lines. -/
theorem signature_mem_lines {f : FunctionDef} (brace : f.braceOnNewLine = false)
    {start rest : String} (signature : f.signature = start ++ rest) (filled : start ≠ "")
    (unbroken : Text.IsUnbroken start.toList) : ∃ more, start ++ more ∈ Text.lines f.source := by
  rw [source_eq]
  have shown : start ++ (rest ++ " \x7b") ∈ f.shown Layout.defaultUnit := by
    rw [FunctionDef.shown, if_neg (by simp [brace]), Layout.blockLines, signature,
      ← String.append_assoc]
    simp
  exact Text.line_of_mem shown filled unbroken

end FunctionDef

end ScriptGlue.Code
