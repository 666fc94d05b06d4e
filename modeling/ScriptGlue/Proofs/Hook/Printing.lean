import ScriptGlue.Proofs.Hook.Signatures

/-!
# Reading back a catalogue

A catalogue is printed as an enumeration in one source and an array in another. Reading the two
gives the hooks with the numbers that C gives their enumerators, each with the row of its number
among the rows that have a key.
-/
namespace ScriptGlue.Hook

theorem idOf_natCast (n : Nat) : idOf n = n := by
  rw [idOf, if_pos (Int.natCast_nonneg n), Int.toNat_natCast]

/-- The hooks that an enumeration numbers, each with the row of its number. -/
def numberedEntries (members : List HookMember) (signatures : List Signature) : List Entry :=
  ((numbered 0 members).filter (·.1.short ≠ endMarker)).map fun (m, n) =>
    ⟨m.short, n, signatures[n]?⟩

/-- Joining sees no more of the enumerators than their names and values. -/
theorem join_entries {es : List Enumerator} {members : List HookMember}
    (values : es.map (fun e => (e.name, e.value)) =
      (numbered 0 members).map fun p => (p.1.short, (p.2 : Int)))
    (signatures : List Signature) (results : List Enumerator) :
    (Catalogue.join (es.filter (·.name ≠ endMarker)) signatures results).entries =
      numberedEntries members signatures := by
  have joined := congrArg (fun pairs : List (String × Int) =>
    (pairs.filter (·.1 ≠ endMarker)).map fun (name, value) =>
      (⟨name, idOf value, signatures[idOf value]?⟩ : Entry)) values
  simp only [List.filter_map, List.map_map, Function.comp_def, idOf_natCast] at joined
  exact joined

namespace Catalogue

/-- Reading undoes printing: whatever the gaps in the two sources are, and whatever text stands
before and after the enumeration and the array, the catalogue has the printed hooks, in order and
with their values as numbers, and the signatures of the printed rows with keys, in order. -/
theorem read_printed {members : List HookMember} {written : List ArrayRow}
    {enumTrailing arrayTrailing : Bool} {enumSource arraySource : String}
    (enum : Printed (enumHead hookEnum) (enumWords members enumTrailing) enumSource)
    (array : Printed (arrayHead signatureArray) (arrayWords written arrayTrailing) arraySource)
    (bounded : ∀ p ∈ numbered 0 members, p.2 + 1 < Token.integerLimit)
    (results : Token.integerLimit - 1 ∉ resultValues enumSource) :
    ∃ c, Catalogue.read enumSource arraySource = .ok c ∧
      c.entries = numberedEntries members c.signatures ∧
      List.Forall₂ ArrayRow.States (written.filter (·.key.isSome)) c.signatures := by
  obtain ⟨hooks, readHooks, values⟩ := readEnum_printed enum bounded
  obtain ⟨resultList, readList⟩ := readResults_ok results
  obtain ⟨signatures, readRows, states⟩ := readSignatures_printed array
  refine ⟨join (hooks.filter (·.name ≠ endMarker)) signatures resultList, ?_,
    join_entries values signatures resultList, states⟩
  rw [Catalogue.read, readHooks, readList, readRows]
  rfl

/-! ### A pair of sources -/

/-- The last enumerator is not a hook. -/
def gappedMembers : List HookMember :=
  [⟨"Spawn", by decide, none⟩, ⟨"Use", by decide, some (.hex false (⟨1, by decide⟩, false) [])⟩,
    ⟨endMarker, by decide, none⟩]

def gappedEnumSource : String :=
  "enum HamResult \x7b HAM_UNSET \x7d ;\nenum HamType // of the game\n\x7bHam_Spawn," ++
    "\n#ifdef EXTRA\nHam_Use = 0x1,\n#endif\nHam_EndMarker,\n\x7d;\n"

/-- The text before the enumeration lists a result. -/
def gappedEnum : Printed (enumHead hookEnum) (enumWords gappedMembers true) gappedEnumSource where
  before := (Gap.row (Gap.empty :: List.replicate 5 Gap.space)
    [.ident "enum" isIdentifier_enum, .ident resultEnum (by decide), .openBrace,
      .ident "HAM_UNSET" (by decide), .closeBrace, .semicolon]).chars
  row := Gap.row
    [.feed, .space, .comment " of the game" (by decide), .empty, .empty,
      .directive "ifdef EXTRA" (by decide), .space, .space, .empty,
      .directive "endif" (by decide), .empty, .feed, .empty]
    (enumWords gappedMembers true)
  after := ['\n']
  whole := by decide +kernel
  spelled := rfl
  gaps := Gap.gaps_row _ _
  apart := by decide +kernel
  alone := Token.tokens_scan_append (Gap.gaps_row _ _) (by decide +kernel) (by decide +kernel) 1
  first := by decide +kernel

/-- A row without a key stands between the rows of the two hooks. -/
def gappedRows : List ArrayRow :=
  [⟨some ⟨"spawn", by decide⟩, ⟨"HAM_RET_VOID", by decide⟩, .ofSize (.decimal 0) (by decide), [],
      false⟩,
    ⟨none, ⟨"HAM_RET_VOID", by decide⟩, .ofSize (.decimal 0) (by decide), [], false⟩,
    ⟨some ⟨"use", by decide⟩, ⟨"HAM_RET_VOID", by decide⟩, .ofSize (.decimal 1) (by decide),
      [⟨"HAM_PARAM_CBASE", by decide⟩], true⟩]

def gappedArraySource : String :=
  "/* generated */ g_hamFunctions[] = \x7b\n\x7b\"spawn\", HAM_RET_VOID, 0, \x7b\x7d\x7d," ++
    "\n\x7bnullptr, HAM_RET_VOID, 0, \x7b\x7d\x7d," ++
    "\n\x7b\"use\", HAM_RET_VOID, 1, \x7bHAM_PARAM_CBASE,\x7d\x7d\x7d;"

/-- The gaps before the words of a row; those before its parameters are given. -/
def rowGaps (params : List Gap) : List Gap :=
  [.feed, .empty, .empty, .space, .empty, .space, .empty, .space] ++ params ++ [.empty, .empty]

def gappedArray :
    Printed (arrayHead signatureArray) (arrayWords gappedRows false) gappedArraySource where
  before := "/* generated */".toList
  row := Gap.row
    ([.space, .empty, .empty, .space, .space] ++ rowGaps [] ++ [.empty] ++ rowGaps [] ++ [.empty] ++
      rowGaps [.empty, .empty] ++ [.empty, .empty])
    (arrayWords gappedRows false)
  after := []
  whole := by decide +kernel
  spelled := rfl
  gaps := Gap.gaps_row _ _
  apart := by decide +kernel
  alone := by decide +kernel
  first := by decide +kernel

/-- The sources of two hooks are read. -/
theorem read_printed_sample : ∃ c, Catalogue.read gappedEnumSource gappedArraySource = .ok c ∧
    c.entries = [⟨"Spawn", 0, c.signatures[0]?⟩, ⟨"Use", 1, c.signatures[1]?⟩] ∧
    List.Forall₂ ArrayRow.States (gappedRows.filter (·.key.isSome)) c.signatures :=
  read_printed gappedEnum gappedArray (by decide) (by decide +kernel)

end Catalogue

end ScriptGlue.Hook
