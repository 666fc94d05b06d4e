import ScriptGlue.Declaration.Basic
import ScriptGlue.Proofs.Mapping.Stages
import ScriptGlue.Proofs.Text.Search

/-!
# Pointers that are counted

Some pointers convert to script arrays and ask for a number of elements: those to floats, integers
and bytes. Whether a pointer is one of them is told by its base name, and whether it is a pointer to
characters by a search through its spelling. The two tests meet in one type, `unsigned char`, whose
elements are bytes to the first and characters to the second.
-/
namespace ScriptGlue

namespace Text

variable {p : Char → Bool}

theorem isInfix_of_mem_runs {w s : List Char} (member : w ∈ runs p s) : w <:+: s := by
  fun_induction runs p s with
  | case1 => cases member
  | case2 s c r whole ih =>
    have rest : c :: r <:+ s := whole ▸ List.dropWhile_suffix p
    rcases List.mem_cons.mp member with rfl | later
    · exact (List.prefix_cons_inj c).mpr (List.takeWhile_prefix _) |>.isInfix.trans rest.isInfix
    · have behind : r.dropWhile (!p ·) <:+ c :: r :=
        (List.dropWhile_suffix _).trans (List.suffix_cons c r)
      exact (ih later).trans (behind.trans rest).isInfix

/-- What does not separate stands in some run. -/
theorem exists_run_of_mem {c : Char} {s : List Char} (member : c ∈ s) (solid : p c = false) :
    ∃ w ∈ runs p s, c ∈ w := by
  fun_induction runs p s with
  | case1 s empty =>
    rw [List.dropWhile_eq_nil_iff] at empty
    rw [empty c member] at solid
    cases solid
  | case2 s d r whole ih =>
    rw [← List.takeWhile_append_dropWhile (p := p) (l := s), whole, List.mem_append] at member
    rcases member with blank | behind
    · rw [List.mem_takeWhile_imp blank] at solid
      cases solid
    rcases List.mem_cons.mp behind with rfl | behind
    · exact ⟨_, List.mem_cons_self, List.mem_cons_self⟩
    rw [← List.takeWhile_append_dropWhile (p := (!p ·)) (l := r), List.mem_append] at behind
    rcases behind with here | later
    · exact ⟨_, List.mem_cons_self, List.mem_cons_of_mem d here⟩
    · obtain ⟨w, run, inside⟩ := ih later
      exact ⟨w, List.mem_cons_of_mem _ run, inside⟩

end Text

namespace Mapping

variable {type : String}

/-- Words behind one another are the words of the type that they make. -/
theorem typeWords_spaced {ws : List String}
    (solid : ∀ w ∈ ws, w.toList ≠ [] ∧ ∀ c ∈ w.toList, partsWords c = false) :
    typeWords (" ".intercalate ws) = ws := by
  have flush : starred ws 0 = " ".intercalate ws := String.append_empty
  rw [← flush, typeWords_starred solid]

/-- The base name has the words of the type that are no qualifiers. -/
theorem typeWords_baseName (type : String) : typeWords (baseName type) =
    (typeWords type).filter fun w => w ≠ "const" && w ≠ "struct" :=
  typeWords_spaced fun _ member => solid_of_mem_typeWords (List.mem_of_mem_filter member)

theorem isPointerType_iff : isPointerType type = true ↔ 0 < pointerDepth type := by
  rw [isPointerType, List.contains_iff_mem, pointerDepth, List.count_pos_iff]

theorem pointerRow?_iff {row : PointerRow} :
    pointerRow? type = some row ↔ row? type = some (.pointer row) := by
  unfold pointerRow?
  split
  · rename_i other found
    rw [found, Option.some.injEq, Option.some.injEq, Row.pointer.injEq]
  · rename_i other
    exact iff_of_false (by simp) (other row)

/-- A pointer has one star and the base name of its row. -/
theorem single_of_pointer {row : PointerRow} (found : row? type = some (.pointer row)) :
    pointerDepth type = 1 ∧ (baseName type, row) ∈ pointerRows := by
  have stage := stage_row? type
  rw [found] at stage
  cases stage with
  | pointer other depth noRecord listed =>
    rw [pointerDepth_canonical] at depth
    rw [baseName_canonical] at listed
    exact ⟨depth, listed⟩

def countedNames : List String := ["float", "int", "unsigned char", "byte"]

theorem mem_countedNames : ∀ pair ∈ pointerRows, pair.2.defaultLength.isSome = true →
    pair.1 ∈ countedNames := by
  decide

theorem baseName_of_counted {row : PointerRow} (found : row? type = some (.pointer row))
    (counted : takesLength row.toScript = true) : baseName type ∈ countedNames := by
  have listed := (single_of_pointer found).2
  rw [(pointerRows_length _ listed).1] at counted
  exact mem_countedNames _ listed counted

/-- Characters that neither qualifiers nor the base name have, a type does not have. -/
theorem mem_type {c : Char} (member : c ∈ type.toList) :
    partsWords c = true ∨ c ∈ "const".toList ∨ c ∈ "struct".toList ∨
      c ∈ (baseName type).toList := by
  cases solid : partsWords c with
  | true => exact .inl rfl
  | false =>
    obtain ⟨w, run, inside⟩ := Text.exists_run_of_mem member solid
    have word : String.ofList w ∈ typeWords type := List.mem_map_of_mem run
    have there : c ∈ (" ".intercalate (typeWords type)).toList :=
      Text.subset_spaced word (by rwa [String.toList_ofList])
    have spelled : c ∈ (canonical type).toList := by
      rw [canonical_eq_starred, toList_starred]
      exact List.mem_append_left _ there
    rw [← solid]
    exact mem_canonical spelled

/-- Of the counted elements one is spelled as a character. -/
theorem isCharPointerType_iff (pointer : isPointerType type = true)
    (counted : baseName type ∈ countedNames) :
    isCharPointerType type = true ↔ baseName type = "unsigned char" := by
  rw [isCharPointerType, pointer, Bool.true_and, Text.contains_iff]
  constructor
  · intro spelled
    have letter : 'h' ∈ type.toList := spelled.subset (by decide)
    have absent : ∀ name ∈ countedNames, 'h' ∈ name.toList → name = "unsigned char" := by decide
    rcases mem_type letter with parts | const | struct | base
    · exact absurd parts (by decide)
    · exact absurd const (by decide)
    · exact absurd struct (by decide)
    · exact absent _ counted base
  · intro base
    have words := typeWords_baseName type
    rw [base] at words
    have word : "char" ∈ typeWords type := by
      have kept : "char" ∈ typeWords "unsigned char" := by decide +kernel
      rw [words] at kept
      exact List.mem_of_mem_filter kept
    obtain ⟨w, run, same⟩ := List.mem_map.mp word
    rw [← same, String.toList_ofList]
    exact Text.isInfix_of_mem_runs run

end Mapping

end ScriptGlue
