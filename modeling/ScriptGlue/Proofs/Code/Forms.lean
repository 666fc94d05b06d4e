import ScriptGlue.Proofs.Code.Nesting

/-!
# Forms of generated code

Functions, lists, signatures, interfaces and enumerations are nested, whatever texts they hold, and
they are whole lines if none of their texts holds a line end.
-/
namespace ScriptGlue.Code

theorem not_mem_intercalate {c : Char} {sep : String} {parts : List String}
    (between : c ∉ sep.toList) (each : ∀ part ∈ parts, c ∉ part.toList) :
    c ∉ (sep.intercalate parts).toList := by
  induction parts with
  | nil => exact List.not_mem_nil
  | cons part r ih =>
    have first := each part List.mem_cons_self
    have rest := ih fun p member => each p (List.mem_cons_of_mem part member)
    cases r with
    | nil => simpa using first
    | cons next r =>
      rw [String.intercalate_cons_cons, String.toList_append, String.toList_append]
      exact List.not_mem_append (List.not_mem_append first between) rest

theorem newline_not_mem_intRepr (n : Int) : '\n' ∉ n.repr.toList := by
  cases n with
  | ofNat n => exact (Text.isUnbroken_repr n).newline_not_mem
  | negSucc n =>
    have spelled : (Int.negSucc n).repr = "-" ++ (n + 1).repr := rfl
    rw [spelled, String.toList_append]
    exact List.not_mem_append (by decide) (Text.isUnbroken_repr (n + 1)).newline_not_mem

namespace Layout

theorem mem_intercalate {between : Layout} {parts : List Layout} {step : Step}
    (member : step ∈ between.intercalate parts) :
    step ∈ between ∨ ∃ part ∈ parts, step ∈ part := by
  induction parts with
  | nil => exact absurd member List.not_mem_nil
  | cons part r ih =>
    cases r with
    | nil => exact .inr ⟨part, List.mem_cons_self, by simpa using member⟩
    | cons next r =>
      rw [List.intercalate_cons_cons, List.append_assoc, List.mem_append, List.mem_append] at member
      rcases member with here | inner | later
      · exact .inr ⟨part, List.mem_cons_self, here⟩
      · exact .inl inner
      · exact (ih later).imp_right fun ⟨p, among, inside⟩ =>
          ⟨p, List.mem_cons_of_mem part among, inside⟩

end Layout

open Layout

/-! ### Native code -/

namespace FunctionDef

variable (f : FunctionDef)

def pieces : List String := f.signature :: (f.comments ++ f.body)

theorem isNested_layout : IsNested f.layout := by
  have comments := (onlyLines_map ("// " ++ ·) f.comments).isNested
  have body := (onlyLines_ofLines f.body).isNested
  refine comments.append ?_
  split
  · exact (isNested_scope body).cons_line f.signature
  · exact isNested_block _ _ body

variable {f}

theorem isPlain_layout (clean : ∀ piece ∈ f.pieces, '\n' ∉ piece.toList) : IsPlain f.layout := by
  have signature : '\n' ∉ f.signature.toList := clean _ (by simp [pieces])
  have comment : ∀ c ∈ f.comments, '\n' ∉ c.toList := fun c member =>
    clean c (by simp [pieces, member])
  have row : ∀ l ∈ f.body, '\n' ∉ l.toList := fun l member => clean l (by simp [pieces, member])
  intro text member
  rw [layout, List.mem_append] at member
  rcases member with above | whole
  · obtain ⟨c, among, same⟩ := List.mem_map.mp above
    rw [← Step.line.inj same]
    simp +decide [comment c among]
  · split at whole
    · rw [List.mem_cons, line_mem_scope, List.mem_map] at whole
      rcases whole with same | rfl | ⟨l, among, same⟩ | rfl
      · exact Step.line.inj same ▸ signature
      · decide
      · exact Step.line.inj same ▸ row l among
      · decide
    · rw [line_mem_block, List.mem_map] at whole
      rcases whole with rfl | ⟨l, among, same⟩ | rfl
      · simp +decide [signature]
      · exact Step.line.inj same ▸ row l among
      · decide

end FunctionDef

namespace ListDef

variable (d : ListDef)

def pieces : List String := d.head :: d.items.flatMap fun item => item.text :: item.note.toList

def itemText (comma : String) (item : ListedItem) : String :=
  match item.note with
  | some note => s!"{item.text}{comma} // {note}"
  | none => s!"{item.text}{comma}"

theorem itemLine_eq (comma : String) (item : ListedItem) :
    itemLine comma item = .line (itemText comma item) := by
  rw [itemLine, itemText]
  cases item.note <;> rfl

theorem mem_itemLines {step : Step} {items : List ListedItem} (member : step ∈ itemLines items) :
    ∃ item ∈ items, ∃ comma ∈ ["", ","], step = .line (itemText comma item) := by
  fun_induction itemLines items with
  | case1 => exact absurd member List.not_mem_nil
  | case2 item =>
    rw [List.mem_singleton, itemLine_eq] at member
    exact ⟨item, List.mem_singleton_self item, "", by simp, member⟩
  | case3 item r _ ih =>
    rcases List.mem_cons.mp member with same | later
    · exact ⟨item, List.mem_cons_self, ",", by simp, same.trans (itemLine_eq _ _)⟩
    · obtain ⟨i, among, spelled⟩ := ih later
      exact ⟨i, List.mem_cons_of_mem item among, spelled⟩

theorem isNested_itemLines (items : List ListedItem) : IsNested (itemLines items) :=
  OnlyLines.isNested fun _ member => by
    obtain ⟨item, -, comma, -, same⟩ := mem_itemLines member
    exact ⟨_, same⟩

theorem isNested_layout : IsNested d.layout := isNested_block _ _ (isNested_itemLines d.items)

variable {d}

theorem isPlain_layout (clean : ∀ piece ∈ d.pieces, '\n' ∉ piece.toList) : IsPlain d.layout := by
  have head : '\n' ∉ d.head.toList := clean _ (by simp [pieces])
  intro text member
  rw [layout, line_mem_block] at member
  rcases member with rfl | row | rfl
  · simp +decide [toString, head]
  · obtain ⟨item, among, comma, mark, same⟩ := mem_itemLines row
    have commas : ∀ comma ∈ ["", ","], '\n' ∉ comma.toList := by decide
    have plain := commas comma mark
    have body : '\n' ∉ item.text.toList := clean _ (by
      rw [pieces, List.mem_cons, List.mem_flatMap]
      exact .inr ⟨item, among, List.mem_cons_self⟩)
    have remark : ∀ note, item.note = some note → '\n' ∉ note.toList := fun note some => clean _ (by
      rw [pieces, List.mem_cons, List.mem_flatMap]
      exact .inr ⟨item, among, by simp [some]⟩)
    rw [Step.line.inj same, itemText]
    split
    · rename_i note some
      simp +decide [toString, body, plain, remark note some]
    · simp [toString, body, plain]
  · decide

end ListDef

/-! ### Declarations -/

namespace TypedSignature

variable (s : TypedSignature)

def pieces : List String :=
  s.name :: s.returns :: (s.doc.toList ++ s.params.flatMap fun p => [p.name, p.type, p.nativeType])

theorem isNested_methodLayout : IsNested s.methodLayout :=
  (onlyLines_map (fun d => s!"/** {d} */") s.doc.toList).isNested.append (isNested_line _)

theorem isNested_eventLayout : IsNested s.eventLayout := by
  have params := onlyLines_map (fun p => s!" * @param {p.name} {p.nativeType} - {p.type}") s.params
  have two (a b : String) : IsNested [.line a, .line b] := (onlyLines_ofLines [a, b]).isNested
  exact ((two _ _).append params.isNested).append (two _ _)

variable {s} (clean : ∀ piece ∈ s.pieces, '\n' ∉ piece.toList)
include clean

theorem newline_not_mem_name : '\n' ∉ s.name.toList := clean _ (by simp [pieces])

theorem newline_not_mem_returns : '\n' ∉ s.returns.toList := clean _ (by simp [pieces])

theorem newline_not_mem_param {p : TypedParam} (member : p ∈ s.params) :
    '\n' ∉ p.name.toList ∧ '\n' ∉ p.type.toList ∧ '\n' ∉ p.nativeType.toList := by
  have among : ∀ t ∈ [p.name, p.type, p.nativeType], t ∈ s.pieces := fun t inside => by
    simp only [pieces, List.mem_cons, List.mem_append, List.mem_flatMap]
    exact .inr (.inr (.inr ⟨p, member, by simpa using inside⟩))
  exact ⟨clean _ (among _ (by simp)), clean _ (among _ (by simp)), clean _ (among _ (by simp))⟩

theorem newline_not_mem_paramList : '\n' ∉ s.paramList.toList := by
  refine not_mem_intercalate (by decide) fun part member => ?_
  rcases List.mem_append.mp member with named | rest
  · obtain ⟨p, among, rfl⟩ := List.mem_map.mp named
    obtain ⟨name, type, -⟩ := newline_not_mem_param clean among
    simp +decide [toString, name, type]
  · split at rest
    · rw [List.mem_singleton.mp rest]
      decide
    · exact absurd rest List.not_mem_nil

theorem isPlain_methodLayout : IsPlain s.methodLayout := by
  intro text member
  rcases List.mem_append.mp member with doc | last
  · obtain ⟨d, among, same⟩ := List.mem_map.mp doc
    have plain : '\n' ∉ d.toList := clean d (by simp [pieces, Option.mem_toList.mp among])
    rw [← Step.line.inj same]
    simp +decide [toString, plain]
  · rw [List.mem_singleton, Step.line.injEq] at last
    rw [last]
    simp +decide [TypedSignature.text, toString, newline_not_mem_name clean,
      newline_not_mem_paramList clean, newline_not_mem_returns clean]

theorem isPlain_eventLayout : IsPlain s.eventLayout := by
  have name := newline_not_mem_name clean
  have list := newline_not_mem_paramList clean
  have returns := newline_not_mem_returns clean
  intro text member
  simp only [eventLayout, List.mem_append, List.mem_cons, List.not_mem_nil, or_false, List.mem_map,
    Step.line.injEq] at member
  rcases member with ((rfl | rfl) | ⟨p, among, rfl⟩) | rfl | rfl
  · decide
  · simp +decide [toString, name]
  · obtain ⟨param, type, native⟩ := newline_not_mem_param clean among
    simp +decide [toString, param, native, type]
  · decide
  · simp +decide [toString, name, list, returns]

end TypedSignature

namespace TypedMember

def pieces : TypedMember → List String
  | property name type => [name, type]
  | method s => s.pieces
  | event s => s.pieces
  | comment text => [text]

theorem isNested_layout (m : TypedMember) : IsNested m.layout := by
  cases m with
  | property name type => exact isNested_line _
  | method s => exact s.isNested_methodLayout
  | event s => exact s.isNested_eventLayout
  | comment text => exact isNested_line _

theorem isPlain_layout {m : TypedMember} (clean : ∀ piece ∈ m.pieces, '\n' ∉ piece.toList) :
    IsPlain m.layout := by
  cases m with
  | property name type =>
    intro text member
    rw [List.mem_singleton.mp member |> Step.line.inj]
    have name : '\n' ∉ name.toList := clean _ List.mem_cons_self
    have type : '\n' ∉ type.toList := clean _ (List.mem_cons_of_mem _ List.mem_cons_self)
    simp +decide [toString, name, type]
  | method s => exact TypedSignature.isPlain_methodLayout clean
  | event s => exact TypedSignature.isPlain_eventLayout clean
  | comment remark =>
    intro text member
    rw [List.mem_singleton.mp member |> Step.line.inj]
    have plain : '\n' ∉ remark.toList := clean _ List.mem_cons_self
    simp +decide [toString, plain]

end TypedMember

namespace TypedInterface

variable (i : TypedInterface)

def pieces : List String := i.name :: i.members.flatMap (·.pieces)

theorem isNested_layout : IsNested i.layout := by
  have each : ∀ part ∈ i.members.map (·.layout), IsNested part := by
    intro part member
    obtain ⟨m, -, rfl⟩ := List.mem_map.mp member
    exact m.isNested_layout
  refine isNested_block _ _ ?_
  split
  · exact isNested_intercalate (isNested_line "") each
  · exact isNested_flatten each

variable {i}

theorem isPlain_layout (clean : ∀ piece ∈ i.pieces, '\n' ∉ piece.toList) : IsPlain i.layout := by
  have name : '\n' ∉ i.name.toList := clean _ (by simp [pieces])
  have each : ∀ part ∈ i.members.map (·.layout), IsPlain part := by
    intro part member
    obtain ⟨m, among, rfl⟩ := List.mem_map.mp member
    exact TypedMember.isPlain_layout fun piece inside => clean piece (by
      rw [pieces, List.mem_cons, List.mem_flatMap]
      exact .inr ⟨m, among, inside⟩)
  intro text member
  rw [layout, line_mem_block] at member
  rcases member with rfl | inner | rfl
  · simp +decide [toString, name]
  · split at inner
    · rcases mem_intercalate inner with gap | ⟨part, among, inside⟩
      · rw [List.mem_singleton.mp gap |> Step.line.inj]
        decide
      · exact each part among text inside
    · obtain ⟨part, among, inside⟩ := List.mem_flatten.mp inner
      exact each part among text inside
  · decide

end TypedInterface

namespace TypedEnum

variable (e : TypedEnum)

def pieces : List String :=
  e.name :: (e.doc.toList ++ e.values.flatMap fun v => v.name :: v.comment.toList)

def valueText (v : TypedValue) : String :=
  match v.comment with
  | some comment => s!"{v.name} = {v.value}, // {comment}"
  | none => s!"{v.name} = {v.value},"

theorem valueLine_eq (v : TypedValue) : valueLine v = .line (valueText v) := by
  rw [valueLine, valueText]
  cases v.comment <;> rfl

theorem isNested_layout : IsNested e.layout := by
  have values : OnlyLines (e.values.map valueLine) := by
    intro step member
    obtain ⟨v, -, rfl⟩ := List.mem_map.mp member
    exact ⟨_, valueLine_eq v⟩
  exact (onlyLines_map (fun d => s!"/** {d} */") e.doc.toList).isNested.append
    (isNested_block _ _ values.isNested)

variable {e}

theorem isPlain_layout (clean : ∀ piece ∈ e.pieces, '\n' ∉ piece.toList) : IsPlain e.layout := by
  have name : '\n' ∉ e.name.toList := clean _ (by simp [pieces])
  intro text member
  rw [layout, List.mem_append, line_mem_block] at member
  rcases member with doc | rfl | row | rfl
  · obtain ⟨d, among, same⟩ := List.mem_map.mp doc
    have plain : '\n' ∉ d.toList := clean d (by simp [pieces, Option.mem_toList.mp among])
    rw [← Step.line.inj same]
    simp +decide [toString, plain]
  · split <;> simp +decide [toString, name]
  · obtain ⟨v, among, same⟩ := List.mem_map.mp row
    have own : '\n' ∉ v.name.toList := clean _ (by
      simp only [pieces, List.mem_cons, List.mem_append, List.mem_flatMap]
      exact .inr (.inr ⟨v, among, .inl rfl⟩))
    have remark : ∀ comment, v.comment = some comment → '\n' ∉ comment.toList := fun comment some =>
      clean _ (by
        simp only [pieces, List.mem_cons, List.mem_append, List.mem_flatMap]
        exact .inr (.inr ⟨v, among, .inr (by simp [some])⟩))
    have number := newline_not_mem_intRepr v.value
    rw [valueLine_eq] at same
    rw [← Step.line.inj same, valueText]
    split
    · rename_i comment some
      simp +decide [own, number, remark comment some, toString]
    · simp +decide [own, number, toString]
  · decide

end TypedEnum

end ScriptGlue.Code
