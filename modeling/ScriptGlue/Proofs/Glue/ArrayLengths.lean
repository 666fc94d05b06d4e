import ScriptGlue.Proofs.Declaration.FoldPlaces
import ScriptGlue.Proofs.Glue.EventTyping
import ScriptGlue.Proofs.Mapping.Untyped

/-!
# Arrays and their lengths

An array whose elements are counted and that stands right before its length is folded with it, so
listeners get all its elements: the length goes into the conversion and none is assumed. This holds
for every spelling of floats, integers and bytes but one. A pointer to `unsigned char` is taken for
text, its length stays an argument, and listeners get one element.
-/
namespace ScriptGlue

open Code Mapping

/-! ### The conversion of a counted array -/

namespace ScriptArg

/-- Listeners get an array with its length as the last argument of the conversion, and nothing is
flagged. -/
structure PassesLength (a : ScriptArg) (row : PointerRow) (length : String) : Prop where
  value : a.eventValue.value =
    (⟨fill row.toScript a.name "" (canonical a.type) (some length), a.name, a.type⟩, [])
  last : ∃ lead, a.eventValue.value.1.expr = lead ++ s!", {length})"

/-- A counted pointer is converted with the length that is folded into it. -/
theorem passesLength {a : ScriptArg} {row : PointerRow} {length : String}
    (folded : a.length = some length) (found : row? a.type = some (.pointer row))
    (counted : takesLength row.toScript = true) : a.PassesLength row length := by
  obtain ⟨-, listed⟩ := single_of_pointer found
  have known : a.knownLength = some length := by rw [knownLength, folded]
  have plain : (toScript a.type a.name (some length)).value =
      ⟨fill row.toScript a.name "" (canonical a.type) (some length), .pointer, none⟩ :=
    toScript_eq found a.name (some length)
  have calls : Text.startsWith (fill row.toScript a.name "" (canonical a.type) (some length))
      externalLead = false := by
    rw [Bool.eq_false_iff]
    intro starts
    obtain ⟨e, same⟩ := Text.startsWith_iff.mp starts
    exact ne_external found (isExternal_of_counted counted) a.name (some length) e same
  have value : a.eventValue.value =
      (⟨fill row.toScript a.name "" (canonical a.type) (some length), a.name, a.type⟩, []) := by
    simp only [eventValue, known, Logged.value_bind, plain, calls, Bool.and_false,
      Bool.false_eq_true, if_false, Logged.value_pure]
    rfl
  refine ⟨value, ?_⟩
  have sized : row.defaultLength.isSome = true := by
    rw [← (pointerRows_length _ listed).1]
    exact counted
  obtain ⟨size, default⟩ := Option.isSome_iff_exists.mp sized
  rw [value]
  exact exists_fill_length ((pointerRows_length _ listed).2 size default).1 ..

end ScriptArg

namespace Declaration

/-- A handler has the flags of the values that it raises. -/
theorem flags_dispatch (d : Declaration) :
    (d.dispatch none).value.2 = d.scriptArgs.flatMap (·.eventValue.value.2) := by
  unfold dispatch
  cases args : d.scriptArgs with
  | nil => rfl
  | cons a r =>
    simp only [List.isEmpty_cons, Bool.false_eq_true, if_false, Logged.value_bind,
      Logged.value_pure, Logged.value_forEach, List.flatMap_map]

/-- A counted array that is not absorbed and stands right before its length is folded with it unless
its elements are spelled `unsigned char`. Where it is folded, every handler without a body written
by hand passes the length on and assumes none. -/
theorem countedArray_folds_iff {d : Declaration} {n : Nat} {p next : Parameter} {row : PointerRow}
    (place : d.fixed[n]? = some p) (free : ¬ IsAbsorbed d.fixed n)
    (behind : d.fixed[n + 1]? = some next) (spells : SpellsLength next.name)
    (single : pointerRow? p.type = some row) (counted : takesLength row.toScript = true) :
    ∃ (places : List Nat) (index : Nat) (a : ScriptArg),
      FoldedFrom d.fixed places d.scriptArgs ∧ places[index]? = some n ∧
      d.scriptArgs[index]? = some a ∧ a.param = p ∧
      a.length = (if baseName p.type = "unsigned char" then none else some next.name) ∧
      (baseName p.type ≠ "unsigned char" → a.PassesLength row next.name) ∧
      ∀ (g : GlueSettings) (table : Table) (phase : Phase), d.isUnparsable = false →
        (g.custom table d.name).bind (·.event) = none →
        ∃ h, (d.eventSlot g table phase).value = .handler h ∧
          h.dispatch.raised[index]? = some a.eventValue.value.1 ∧
          h.flags = d.scriptArgs.flatMap (·.eventValue.value.2) := by
  have found := pointerRow?_iff.mp single
  have pointer : isPointerType p.type = true := by
    rw [isPointerType_iff, (single_of_pointer found).1]
    exact Nat.one_pos
  have text := isCharPointerType_iff pointer (baseName_of_counted found counted)
  obtain ⟨places, folds⟩ : ∃ places, FoldedFrom d.fixed places d.scriptArgs :=
    exists_foldedFrom d.fixed
  have kept : n ∈ places := (folds.kept n).mpr ⟨(List.getElem?_eq_some_iff.mp place).1, free⟩
  obtain ⟨index, bound, here⟩ := List.getElem_of_mem kept
  have bound' : index < d.scriptArgs.length := folds.each.length_eq ▸ bound
  have stands := folds.each.get bound bound'
  simp only [List.get_eq_getElem, here] at stands
  obtain ⟨own, length⟩ := stands
  obtain rfl : d.scriptArgs[index].param = p := Option.some.inj (own.symm.trans place)
  have lengths : d.scriptArgs[index].length =
      if baseName d.scriptArgs[index].param.type = "unsigned char" then none
      else some next.name := by
    split
    · rename_i chars
      rw [Option.eq_none_iff_forall_ne_some]
      rintro l absorbed
      obtain ⟨-, -, ⟨-, plain, -⟩, -⟩ := (length l).mp absorbed
      rw [text.mpr chars] at plain
      cases plain
    · rename_i other
      refine (length next.name).mpr ⟨next, behind, ⟨pointer, ?_, spells⟩, rfl⟩
      rwa [← Bool.not_eq_true, text]
  refine ⟨places, index, _, folds, ?_, List.getElem?_eq_getElem bound', rfl, lengths, ?_, ?_⟩
  · rw [List.getElem?_eq_getElem bound, here]
  · intro other
    rw [if_neg other] at lengths
    exact ScriptArg.passesLength lengths found counted
  · intro g table phase readable generic
    obtain ⟨h, slot, raised, flags⟩ := eventSlot_dispatch readable generic phase
    refine ⟨h, slot, ?_, flags.trans (flags_dispatch d)⟩
    rw [raised, raised_dispatch, List.getElem?_map, List.getElem?_eq_getElem bound']
    rfl

/-- Bytes that are handed over with their number. -/
def sampleBytes : Declaration where
  name := "pfnSend"
  returnType := "void"
  args := [.fixed ⟨"data", "const byte *", none⟩, .fixed ⟨"dataLength", "int", none⟩]
  text := "void (*pfnSend)(const byte *data, int dataLength);"
  line := 1

/-- Listeners get all bytes. -/
theorem countedArray_folds_bytes :
    ofLine sampleBytes.text 1 = pure sampleBytes ∧
      ¬ IsAbsorbed sampleBytes.fixed 0 ∧ SpellsLength "dataLength" ∧
      (∃ row, pointerRow? "const byte *" = some row ∧ takesLength row.toScript = true) ∧
      ∃ (index : Nat) (a : ScriptArg), sampleBytes.scriptArgs[index]? = some a ∧
        a.length = some "dataLength" ∧ a.eventValue.value =
          (⟨"utils::byteArrayToJS(isolate, data, dataLength)", "data", "const byte *"⟩, []) := by
  have spells : SpellsLength "dataLength" := namesLength_iff.mp (by decide +kernel)
  have table : (pointerRow? "const byte *").map (fun row => (takesLength row.toScript,
      fill row.toScript "data" "" (canonical "const byte *") (some "dataLength"))) =
        some (true, "utils::byteArrayToJS(isolate, data, dataLength)") := by
    decide +kernel
  obtain ⟨row, single, entry⟩ := Option.map_eq_some_iff.mp table
  obtain ⟨counted, filled⟩ := Prod.mk.inj entry
  obtain ⟨-, index, a, -, -, here, own, length, passes, -⟩ :=
    countedArray_folds_iff (d := sampleBytes) (n := 0) rfl id rfl spells single counted
  have other : baseName "const byte *" ≠ "unsigned char" := by decide +kernel
  rw [if_neg other] at length
  have value := (passes other).value
  rw [ScriptArg.name, ScriptArg.type, own, filled] at value
  exact ⟨by decide +kernel, id, spells, ⟨row, single, counted⟩, index, a, here, length, value⟩

/-- The same with another word for a byte. -/
def sampleChars : Declaration where
  name := "pfnSend"
  returnType := "void"
  args := [.fixed ⟨"data", "unsigned char *", none⟩, .fixed ⟨"dataLength", "int", none⟩]
  text := "void (*pfnSend)(unsigned char *data, int dataLength);"
  line := 1

/-- Listeners get one byte and, beside it, the number of all. -/
theorem not_folded_chars :
    ofLine sampleChars.text 1 = pure sampleChars ∧
      ¬ IsAbsorbed sampleChars.fixed 0 ∧ SpellsLength "dataLength" ∧
      (pointerRow? "unsigned char *").any (takesLength ·.toScript) = true ∧
      sampleChars.scriptArgs.map (fun a => (a.name, a.length)) =
        [("data", none), ("dataLength", none)] ∧
      sampleChars.scriptArgs.map (·.eventValue.value) =
        [(⟨"utils::byteArrayToJS(isolate, data, 1)", "data", "unsigned char *"⟩,
            [.assumedLength "data" 1]),
          (⟨"v8::Number::New(isolate, dataLength)", "dataLength", "int"⟩, [])] :=
  ⟨by decide +kernel, id, namesLength_iff.mp (by decide +kernel), by decide +kernel,
    by decide +kernel, by decide +kernel⟩

end Declaration

end ScriptGlue
