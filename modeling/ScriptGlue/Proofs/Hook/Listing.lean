import ScriptGlue.Proofs.Declaration.Grammar
import ScriptGlue.Proofs.Source.Gap
import ScriptGlue.Proofs.Source.Reader

/-!
# Lists in braces

Enumerators, rows of an array and parameter codes stand in braces, with commas between them and
perhaps one behind the last. A reader takes such a list item by item: behind an item it finds a
comma, which it skips, or the closing brace.
-/
namespace ScriptGlue

open Token (Kind)

namespace Word

def openBrace : Word := .mark '{' (by decide)
def closeBrace : Word := .mark '}' (by decide)
def equals : Word := .mark '=' (by decide)

/-- What stands behind an item, where `rest` are the items after it. -/
def separator (trailing : Bool) (rest : List (List Word)) : List Word :=
  if trailing || !rest.isEmpty then [comma] else []

/-- Items with commas between them, and one behind the last item if `trailing`. -/
def listed (trailing : Bool) : List (List Word) → List Word
  | [] => []
  | item :: rest => item ++ separator trailing rest ++ listed trailing rest

def block (head : List Word) (trailing : Bool) (items : List (List Word)) : List Word :=
  head ++ listed trailing items ++ [closeBrace, semicolon]

variable {trailing : Bool} {items : List (List Word)} {w : Word}

/-- A word of a list is a comma or a word of an item. -/
theorem mem_listed (member : w ∈ listed trailing items) : w = comma ∨ ∃ item ∈ items, w ∈ item := by
  induction items with
  | nil => cases member
  | cons item rest ih =>
    rw [listed, separator, List.append_assoc, List.mem_append, List.mem_append] at member
    rcases member with own | separator | later
    · exact .inr ⟨item, List.mem_cons_self, own⟩
    · split at separator
      · exact .inl (List.mem_singleton.mp separator)
      · cases separator
    · rcases ih later with comma | ⟨item', member, own⟩
      · exact .inl comma
      · exact .inr ⟨item', List.mem_cons_of_mem _ member, own⟩

/-- No word of a block opens a directive if none of its head and items does. -/
theorem plain_block {head : List Word} (plainHead : ∀ w ∈ head, w.isHash = false)
    (plainItems : ∀ item ∈ items, ∀ w ∈ item, w.isHash = false) :
    ∀ w ∈ block head trailing items, w.isHash = false := by
  intro w member
  rw [block, List.mem_append, List.mem_append] at member
  rcases member with (opening | inside) | closing
  · exact plainHead w opening
  · rcases mem_listed inside with rfl | ⟨item, listed, own⟩
    · decide
    · exact plainItems item listed w own
  · revert w
    decide

/-- The tokens of a list are those of its first item, what separates it and those of the rest. -/
theorem tokens_listed_cons {ts : List Token} {item : List Word}
    (spelled : ts.map (·.kind) = (listed trailing (item :: items)).map (·.kind)) :
    ∃ own between rest, ts = own ++ (between ++ rest) ∧ own.map (·.kind) = item.map (·.kind) ∧
      between.map (·.kind) = (separator trailing items).map (·.kind) ∧
      rest.map (·.kind) = (listed trailing items).map (·.kind) := by
  rw [listed, List.append_assoc, List.map_append, List.map_append] at spelled
  obtain ⟨own, behind, rfl, isItem, spelled⟩ := List.map_eq_append_iff.mp spelled
  obtain ⟨between, rest, rfl, isSeparator, isRest⟩ := List.map_eq_append_iff.mp spelled
  exact ⟨own, between, rest, rfl, isItem, isSeparator, isRest⟩

/-- Behind an item stands a comma, which is skipped, or the end of the list. -/
theorem skip_separator {between rest : List Token}
    (isSeparator : between.map (·.kind) = (separator trailing items).map (·.kind))
    (isRest : rest.map (·.kind) = (listed trailing items).map (·.kind)) {close : Token}
    (isClose : close.kind = .closeBrace) (after : List Token) (stop : Span) :
    ∃ t r, between ++ (rest ++ close :: after) = t :: r ∧ t.kind ≠ .equals ∧
      Reader.skip .comma ⟨t :: r, stop⟩ = .ok ((), ⟨rest ++ close :: after, stop⟩) := by
  rw [separator] at isSeparator
  by_cases present : (trailing || !items.isEmpty) = true
  · rw [if_pos present] at isSeparator
    obtain ⟨t, rfl, isComma⟩ := List.map_eq_singleton_iff.mp isSeparator
    have comma : t.kind = .comma := isComma
    exact ⟨t, _, rfl, by simp [comma], Reader.skip_eq comma _ _⟩
  · rw [if_neg present] at isSeparator
    obtain rfl := List.map_eq_nil_iff.mp isSeparator
    obtain rfl : items = [] := by
      cases items with
      | nil => rfl
      | cons item r => exact absurd (by simp) present
    obtain rfl := List.map_eq_nil_iff.mp isRest
    exact ⟨close, after, rfl, by simp [isClose], Reader.skip_other (by simp [isClose]) _ _⟩

end Word

/-- The tokens of a source that spells a block: those of the text before, of the head and of the
items, up to the closing brace. -/
theorem Printed.tokens_block {kinds : List Kind} {head : List Word} {trailing : Bool}
    {items : List (List Word)} {source : String}
    (printed : Printed kinds (Word.block head trailing items) source)
    (plainHead : ∀ w ∈ head, w.isHash = false)
    (plainItems : ∀ item ∈ items, ∀ w ∈ item, w.isHash = false) :
    ∃ opening inside close rest, (Token.scan source.toList 1).tokens =
        (Token.scan printed.before 1).tokens ++ (opening ++ (inside ++ close :: rest)) ∧
      opening.map (·.kind) = head.map (·.kind) ∧
      inside.map (·.kind) = (Word.listed trailing items).map (·.kind) ∧
      close.kind = .closeBrace := by
  obtain ⟨ts, after, whole, spelled⟩ := printed.tokens_eq (Word.plain_block plainHead plainItems)
  rw [Word.block, List.map_append, List.map_append] at spelled
  obtain ⟨front, closing, rfl, isFront, isClosing⟩ := List.map_eq_append_iff.mp spelled
  obtain ⟨opening, inside, rfl, isHead, isListed⟩ := List.map_eq_append_iff.mp isFront
  obtain ⟨close, last, rfl, isClose, -⟩ := List.map_eq_cons_iff.mp isClosing
  exact ⟨opening, inside, close, last ++ after, by rw [whole]; simp, isHead, isListed, isClose⟩

end ScriptGlue
