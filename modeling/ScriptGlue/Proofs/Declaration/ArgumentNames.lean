import ScriptGlue.Proofs.Declaration.OneLine

/-!
# Names of arguments

An argument is named by a token or, for want of one, by its place. Either way its name is an
identifier, so names derived from it can stand as variables in generated code.
-/
namespace ScriptGlue

open Token (Kind)

namespace Declaration

/-- All names that a list of tokens holds are identifiers, as those of a source are. -/
def NamesIdentifiers (ts : List Token) : Prop :=
  ∀ t ∈ ts, ∀ name, t.name? = some name → isIdentifier name = true

theorem namesIdentifiers_of_scan {source : List Char} {line : Nat} {ts : List Token}
    (scanned : ∀ t ∈ ts, t ∈ (Token.scan source line).tokens) : NamesIdentifiers ts :=
  fun t member _ named =>
    Token.isIdentifier_scanFrom (scanned t member) (Token.name?_eq_some_iff.mp named)

variable {source : List Char} {index : Nat} {chunk : List Token}

theorem pointerName?_mem {ts : List Token} {name : String} (found : pointerName? ts = some name) :
    ∃ t ∈ ts, t.name? = some name := by
  unfold pointerName? at found
  split at found
  · rename_i t close r
    split at found
    · exact ⟨t, List.mem_cons_self, found⟩
    · cases found
  · cases found

theorem mem_of_mem_afterPointerMark {ts rest : List Token} {t : Token}
    (found : afterPointerMark ts = some rest) (member : t ∈ rest) : t ∈ ts := by
  fun_induction afterPointerMark ts with
  | case1 a b r mark =>
    cases found
    exact List.mem_cons_of_mem _ (List.mem_cons_of_mem _ member)
  | case2 a b r other ih => exact List.mem_cons_of_mem _ (ih found)
  | case3 ts short => cases found

theorem arrayParts?_mem {name : String} {size : Nat} {lead : List Token}
    (found : arrayParts? chunk = some (name, size, lead)) :
    ∃ t ∈ chunk, t.name? = some name := by
  unfold arrayParts? at found
  split at found
  · rename_i close size' bracket token lead' whole
    split at found
    · split at found
      · rename_i name' _ named _
        cases found
        refine ⟨token, ?_, named⟩
        rw [← List.mem_reverse, whole]
        simp
      · cases found
    · cases found
  · cases found

/-- The name of an argument is that of a token, or made up. -/
theorem isIdentifier_argument (words : NamesIdentifiers chunk) :
    isIdentifier (argument source index chunk).name = true := by
  have value : isIdentifier s!"value{index}" = true := by
    have stem : isIdentifier "value" = true := by decide
    exact isIdentifier_numbered stem index
  have callback : isIdentifier s!"callback{index}" = true := by
    have stem : isIdentifier "callback" = true := by decide
    exact isIdentifier_numbered stem index
  have args : isIdentifier Argument.variadicName = true := by decide
  unfold argument
  dsimp only
  split
  · rename_i first last head final
    split
    · exact args
    · split
      · rename_i rest marked
        cases found : pointerName? rest with
        | none => exact callback
        | some name =>
          obtain ⟨t, member, named⟩ := pointerName?_mem found
          exact words t (mem_of_mem_afterPointerMark marked member) name named
      · split
        · rename_i name size lead parts
          obtain ⟨t, member, named⟩ := arrayParts?_mem parts
          exact words t member name named
        · split
          · exact value
          · split
            · exact value
            · split
              · rename_i name named
                split
                · exact words last (List.mem_of_getLast? final) name named
                · exact value
              · exact value
  · exact value

/-- A chunk of the arguments stands among them as it is. -/
theorem infix_of_mem_chunks {ts : List Token} (inside : chunk ∈ chunks ts) : chunk <:+: ts := by
  unfold chunks at inside
  split at inside
  · cases inside
  · rw [splitCommas_eq] at inside
    exact infix_of_mem_commaChunks inside

theorem isIdentifier_arguments {ts : List Token} (words : NamesIdentifiers ts) {a : Argument}
    (member : a ∈ arguments source ts) : isIdentifier a.name = true := by
  obtain ⟨index, bound, rfl⟩ := List.mem_mapIdx.mp member
  have inside := (List.mem_filter.mp (List.getElem_mem bound)).1
  exact isIdentifier_argument fun t within =>
    words t ((infix_of_mem_chunks inside).subset within)

/-- Whatever a line holds, the arguments that are read from it have identifiers as names. -/
theorem isIdentifier_ofLine {text : String} {line : Nat} {p : Parameter}
    (member : p ∈ (ofLine text line).value.fixed) : isIdentifier p.name = true := by
  obtain ⟨a, listed, typed⟩ := List.mem_filterMap.mp member
  have same : a.name = p.name := by
    cases a with
    | fixed q =>
      cases typed
      rfl
    | variadic => cases typed
  rw [← same]
  rw [ofLine] at listed
  split at listed
  · rename_i d read
    obtain ⟨-, -, -, inner, args, scanned⟩ := read_ok read
    rw [Logged.value_pure, args] at listed
    exact isIdentifier_arguments (namesIdentifiers_of_scan scanned) listed
  · cases listed

end Declaration

end ScriptGlue
