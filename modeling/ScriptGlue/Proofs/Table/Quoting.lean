import ScriptGlue.Proofs.Declaration.ArgumentNames
import ScriptGlue.Proofs.Table.Lines

/-!
# Quoted declarations

Remarks quote a declaration: the text it was read from, and the types and names of its arguments.
None of these ends a line, so a remark stays the one line that it is written as.
-/
namespace ScriptGlue

namespace TableLines

/-! ### Lines of a table -/

theorem subset_of_mem_stripAll {inBlock : Bool} {ls : List (List Char)} {kept : List Char}
    (member : kept ∈ stripAll inBlock ls) : ∃ l ∈ ls, kept ⊆ l := by
  induction ls generalizing inBlock with
  | nil => cases member
  | cons l r ih =>
    rw [stripAll] at member
    rcases List.mem_cons.mp member with rfl | member
    · exact ⟨l, List.mem_cons_self, fun c inside => mem_of_mem_stripComments inside⟩
    · obtain ⟨m, inside, part⟩ := ih member
      exact ⟨m, List.mem_cons_of_mem _ inside, part⟩

theorem newline_not_mem_contentLines {body : String} {line : Nat} {l : SourceLine}
    (member : l ∈ contentLines body line) : '\n' ∉ l.text.toList := by
  obtain ⟨s, stripped, text⟩ := text_of_mem_numbered (List.mem_filter.mp member).1
  obtain ⟨m, cut, part⟩ := subset_of_mem_stripAll stripped
  rw [text]
  exact fun inside =>
    Text.newline_not_mem_lineChars cut (part (Text.mem_of_mem_trimChars inside))

/-- Lines are joined with spaces, so what is joined from lines is one. -/
theorem newline_not_mem_joinOpen {pending : Option SourceLine} {ls : List SourceLine}
    (held : ∀ p ∈ pending, '\n' ∉ p.text.toList) (each : ∀ l ∈ ls, '\n' ∉ l.text.toList) :
    ∀ l ∈ joinOpen pending ls, '\n' ∉ l.text.toList := by
  induction ls generalizing pending with
  | nil => exact fun l member => held l (Option.mem_toList.mp member)
  | cons l r ih =>
    have joined : '\n' ∉ (joinLine pending l).text.toList := by
      have here := each l List.mem_cons_self
      cases pending with
      | none => exact here
      | some p =>
        have spelled : (joinLine (some p) l).text = p.text ++ " " ++ l.text := rfl
        have space : '\n' ∉ " ".toList := by decide
        simp only [spelled, String.toList_append, List.mem_append, not_or]
        exact ⟨⟨held p rfl, space⟩, here⟩
    have others := fun m member => each m (List.mem_cons_of_mem l member)
    rw [joinOpen]
    split
    · refine ih (fun p member => ?_) others
      cases member
      exact joined
    · intro m member
      rcases List.mem_cons.mp member with rfl | member
      · exact joined
      · exact ih (by simp) others m member

theorem newline_not_mem_ofBody {body : String} {line : Nat} :
    ∀ l ∈ (ofBody body line).declarations, '\n' ∉ l.text.toList :=
  newline_not_mem_joinOpen (by simp) fun _ member =>
    newline_not_mem_contentLines (List.mem_filter.mp member).1

end TableLines

namespace Declaration

/-! ### Types of arguments -/

/-- The type of an argument is cut out of its source, or is one of two that are made up. -/
theorem isUnbroken_argument {source : List Char} (unbroken : Text.IsUnbroken source) (index : Nat)
    (chunk : List Token) : Text.IsUnbroken (argument source index chunk).type.toList := by
  have pointer : Text.IsUnbroken "void*".toList := by decide
  have dots : Text.IsUnbroken Argument.variadicType.toList := by decide
  have between (first last : Token) : Text.IsUnbroken (textBetween source first last).toList :=
    fun c member => unbroken c (mem_of_mem_textBetween member)
  have starred (type : String) (cut : Text.IsUnbroken type.toList) :
      Text.IsUnbroken (s!"{type}*").toList := by
    have spelled : s!"{type}*" = type ++ "*" := rfl
    have star : Text.IsUnbroken "*".toList := by decide
    rw [spelled, String.toList_append]
    exact cut.append star
  unfold argument
  dsimp only
  split
  · split
    · exact dots
    · split
      · exact pointer
      · split
        · exact starred _ (between _ _)
        · split
          · exact pointer
          · split
            · exact between _ _
            · split
              · split
                · exact between _ _
                · exact between _ _
              · exact between _ _
  · exact pointer

/-- What is quoted of a declaration ends no line. -/
structure Quotable (d : Declaration) : Prop where
  text : '\n' ∉ d.text.toList
  types : ∀ p ∈ d.fixed, Text.IsUnbroken p.type.toList
  names : ∀ p ∈ d.fixed, Text.IsUnbroken p.name.toList

theorem text_ofLine (text : String) (line : Nat) : (ofLine text line).value.text = text := by
  rw [ofLine]
  split
  · rename_i d read
    exact (read_ok read).1
  · rfl

theorem isUnbroken_type_ofLine {text : String} {line : Nat} {p : Parameter}
    (member : p ∈ (ofLine text line).value.fixed) : Text.IsUnbroken p.type.toList := by
  obtain ⟨a, listed, typed⟩ := List.mem_filterMap.mp member
  have same : a.type = p.type := by
    cases a with
    | fixed q =>
      cases typed
      rfl
    | variadic => cases typed
  rw [← same]
  rw [ofLine] at listed
  split at listed
  · rename_i d read
    obtain ⟨-, -, -, inner, args, -⟩ := read_ok read
    rw [Logged.value_pure, args] at listed
    obtain ⟨index, bound, rfl⟩ := List.mem_mapIdx.mp listed
    exact isUnbroken_argument (Text.isUnbroken_collapse text) index _
  · cases listed

theorem quotable_ofLine {text : String} (unbroken : '\n' ∉ text.toList) (line : Nat) :
    (ofLine text line).value.Quotable where
  text := by rwa [text_ofLine]
  types _ := isUnbroken_type_ofLine
  names _ member c inside :=
    Text.isLineEnd_of_isIdentRest (isIdentRest_of_mem (isIdentifier_ofLine member) inside)

end Declaration

/-- Every declaration of a table can be quoted in a line. -/
theorem ParsedTable.quotable_ofHeader {header : String} {table : Table}
    {logged : Logged ParsedTable} (found : ofHeader header table = .ok logged) :
    ∀ d ∈ logged.value.declarations, d.Quotable := by
  rw [ofHeader] at found
  cases lines : TableLines.ofHeader header table with
  | error fault =>
    rw [lines] at found
    cases found
  | ok content =>
    rw [lines] at found
    cases found
    have cut : ∃ body line, content.value = TableLines.ofBody body line := by
      rw [TableLines.ofHeader] at lines
      split at lines
      · rename_i body line _
        cases lines
        exact ⟨body, line, rfl⟩
      · cases lines
    obtain ⟨body, line, whole⟩ := cut
    intro d member
    simp only [Logged.value_bind, Logged.value_pure, Logged.value_forEach] at member
    obtain ⟨l, inside, rfl⟩ := List.mem_map.mp member
    rw [whole] at inside
    exact Declaration.quotable_ofLine (TableLines.newline_not_mem_ofBody l inside) l.line

end ScriptGlue
