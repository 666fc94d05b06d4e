import ScriptGlue.Proofs.Access.Declarations
import ScriptGlue.Proofs.Access.Hooks
import ScriptGlue.Proofs.Access.Records
import ScriptGlue.Proofs.Access.Tables

/-!
# Reading is safe

All readers of the front end go by position: over the characters of a source, over its tokens, and
over ranges of them. Whatever the text is, no step of them fails and each of their loops ends, with
what is read without positions. The enumeration alone may stop, where its values cannot be counted
further.
-/
namespace ScriptGlue.ByPosition

/-- The index and the ranges of every call are inside, wherever a call is looked for; with the
checks in the programs, this says that no index, range or difference of theirs is out of bounds. -/
theorem reading_safe (text : String) (line : Nat) :
    tokens text.toList line = pure (Token.scan text.toList line).all ∧
    (∀ span, slice text.toList span = pure (span.slice text.toList)) ∧
    declaration text line = pure (Declaration.ofLine text line).value ∧
    (∀ table, tableLines text table =
      pure ((TableLines.ofHeader text table).map (·.value))) ∧
    cleanLines text line = pure (TableLines.clean text line).value ∧
    (∀ array, signatures text array = pure (Hook.readSignatures text array)) ∧
    scrape text = pure (RecordProperty.ofSource text) ∧
    (∀ (tokens : List Token) (paren : Nat), ∃ out, callArguments tokens paren = pure out ∧
      ∀ call ∈ out, call.2 ≤ tokens.length ∧ ∀ r ∈ call.1, r.1 ≤ r.2 ∧ r.2 ≤ tokens.length) ∧
    ∀ enum shared,
      (enumeration text enum shared = throw .overflow ↔
        ∃ e ∈ Hook.reachedIn text enum shared, e.value = 2 ^ 63 - 1) ∧
      (enumeration text enum shared = throw .overflow ∨
        enumeration text enum shared = pure (Hook.readEnum text enum shared)) ∧
      ∀ es, Hook.readEnum text enum shared = .ok es → Hook.reachedIn text enum shared = es := by
  refine ⟨tokens_eq _ line, slice_eq _, declaration_eq text line, tableLines_eq text,
    cleanLines_eq text line, signatures_eq text, scrape_eq text, fun tokens paren => ?_,
    fun enum shared => ?_⟩
  · obtain ⟨out, scanned, isCall⟩ := callArguments_inside tokens paren
    refine ⟨out, scanned, fun call found => ⟨(isCall call found).inside, fun r member => ?_⟩⟩
    have isRange := (isCall call found).ranges r member
    exact ⟨isRange.ordered, Nat.le_of_lt isRange.inside⟩
  · obtain ⟨stops, comes⟩ := enumeration_eq text enum shared
    exact ⟨stops, comes, fun _ => Hook.reachedIn_of_ok⟩

end ScriptGlue.ByPosition
