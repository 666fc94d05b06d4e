import ScriptGlue.Proofs.Declaration.Folding
import ScriptGlue.Proofs.Declaration.Outline

/-!
# Written names and made up ones

An argument without a name is named by its place. No two of these names are equal, but nothing keeps
one from being the name that another argument is written with.
-/
namespace ScriptGlue

open Token (Kind)

/-- Values of which each comes from one of two sources. -/
theorem filterMap_orElse_perm {α β : Type} {f g : α → Option β} (l : List α)
    (either : ∀ a, f a = none ∨ g a = none) :
    (l.filterMap fun a => f a <|> g a).Perm (l.filterMap f ++ l.filterMap g) := by
  induction l with
  | nil => exact .nil
  | cons a r ih =>
    rcases either a with missing | missing
    · cases here : g a with
      | none => simpa [List.filterMap_cons, missing, here] using ih
      | some b =>
        simpa [List.filterMap_cons, missing, here] using (ih.cons b).trans List.perm_middle.symm
    · cases here : f a with
      | none => simpa [List.filterMap_cons, missing, here] using ih
      | some b => simpa [List.filterMap_cons, missing, here] using ih.cons b

namespace ArgumentShape

def written? : ArgumentShape → Option String
  | callback name | typed name _ => name
  | array name _ _ => some name
  | variadic | unreadable => none

/-- The name that an argument at a place gets for want of a written one. -/
def madeUp? (index : Nat) : ArgumentShape → Option String
  | callback none => some s!"callback{index}"
  | typed none _ | unreadable => some s!"value{index}"
  | _ => none

theorem written_or_madeUp (shape : ArgumentShape) (index : Nat) :
    shape.written? = none ∨ shape.madeUp? index = none := by
  cases shape with
  | callback name | typed name => cases name <;> simp [written?, madeUp?]
  | _ => simp [written?, madeUp?]

theorem name_argument (shape : ArgumentShape) (text : Nat → String) (index : Nat) :
    (shape.argument text index).fixed?.map (·.name) = (shape.written? <|> shape.madeUp? index) := by
  cases shape with
  | callback name | typed name => cases name <;> rfl
  | _ => rfl

/-- A name that is made up tells the place that it was made up for. -/
theorem madeUp_inj {a b : ArgumentShape} {i j : Nat} {name : String}
    (here : a.madeUp? i = some name) (there : b.madeUp? j = some name) : i = j := by
  have stems (m n : Nat) : s!"value{m}" ≠ s!"callback{n}" := by
    intro same
    have letters := congrArg (fun s : String => s.toList.head?) same
    simp [toString] at letters
  have spelled {s : ArgumentShape} {n : Nat} (named : s.madeUp? n = some name) :
      name = s!"value{n}" ∨ name = s!"callback{n}" := by
    unfold madeUp? at named
    split at named
    · exact .inr (Option.some.inj named).symm
    · exact .inl (Option.some.inj named).symm
    · exact .inl (Option.some.inj named).symm
    · cases named
  rcases spelled here with rfl | rfl <;> rcases spelled there with same | same
  · exact Text.append_repr_inj same
  · exact absurd same (stems i j)
  · exact absurd same.symm (stems j i)
  · exact Text.append_repr_inj same

end ArgumentShape

namespace Declaration

/-- What the arguments are that chunks stand for; the lone word `void` stands for none. -/
def shapes (cut : List (List Token)) : List ArgumentShape :=
  (cut.filter (·.map (·.kind) ≠ [.ident "void"])).map fun c => .ofKinds (c.map (·.kind))

def writtenNames (shapes : List ArgumentShape) : List String := shapes.filterMap (·.written?)

/-- The names that the other arguments get. -/
def madeUpNames (shapes : List ArgumentShape) : List String :=
  shapes.zipIdx.filterMap fun (shape, index) => shape.madeUp? index

theorem madeUpNames_nodup (shapes : List ArgumentShape) : (madeUpNames shapes).Nodup := by
  have places : (shapes.zipIdx.map Prod.snd).Nodup := by
    rw [List.zipIdx_map_snd]
    exact List.nodup_range'
  rw [madeUpNames, List.Nodup, List.pairwise_filterMap]
  refine (List.pairwise_map.mp places).imp ?_
  rintro ⟨a, i⟩ ⟨b, j⟩ apart name here _ there rfl
  exact apart (ArgumentShape.madeUp_inj here there)

theorem name_argument (source : List Char) (index : Nat) (chunk : List Token) :
    (argument source index chunk).fixed?.map (·.name) =
      ((ArgumentShape.ofKinds (chunk.map (·.kind))).written? <|>
        (ArgumentShape.ofKinds (chunk.map (·.kind))).madeUp? index) := by
  cases chunk with
  | nil => rfl
  | cons first r => rw [argument_shape (fun _ _ => rfl), ArgumentShape.name_argument]

/-- Every argument with a type has a name that it is written with or one that is made up. -/
theorem names_perm {d : Declaration} {source : List Char} {cut : List (List Token)}
    (args : d.args =
      (cut.filter (·.map (·.kind) ≠ [.ident "void"])).mapIdx (argument source)) :
    (d.fixed.map (·.name)).Perm (writtenNames (shapes cut) ++ madeUpNames (shapes cut)) := by
  have names : d.fixed.map (·.name) = (shapes cut).zipIdx.filterMap
      fun (shape, index) => shape.written? <|> shape.madeUp? index := by
    rw [fixed, args, List.map_filterMap, List.mapIdx_eq_zipIdx_map, List.filterMap_map, shapes,
      List.zipIdx_map, List.filterMap_map]
    refine List.filterMap_congr ?_
    rintro ⟨chunk, index⟩ -
    exact name_argument source index chunk
  have written : writtenNames (shapes cut) =
      (shapes cut).zipIdx.filterMap fun (shape, _) => shape.written? := by
    conv => lhs; rw [writtenNames, ← List.zipIdx_map_fst 0 (shapes cut), List.filterMap_map]
    rfl
  rw [names, written]
  exact filterMap_orElse_perm _ fun place => place.1.written_or_madeUp place.2

/-- Of a declaration that is read, no two arguments have the same name exactly if all names are
written differently and none is the one that another argument gets for want of a name. -/
theorem distinctNames_iff {source text : String} {line : Nat} {d : Declaration}
    (done : read source text line = .ok d) : ∃ run name args cut,
      HasForm (Token.scan source.toList line).tokens run name args ∧ IsCut args cut ∧
      (d.fixed.map (·.name)).Perm (writtenNames (shapes cut) ++ madeUpNames (shapes cut)) ∧
      (d.DistinctNames ↔ (writtenNames (shapes cut)).Nodup ∧
        ∀ name ∈ madeUpNames (shapes cut), name ∉ writtenNames (shapes cut)) := by
  obtain ⟨s', taken⟩ := read_eq_ok_iff.mp done
  obtain ⟨run, name, args, first, last, form, -, -, same⟩ := exists_form taken
  have listed : d.args = arguments source.toList args := by
    rw [same]
  have names := names_perm (listed.trans (arguments_chunks source.toList args))
  refine ⟨run, name, args, chunks args, form, isCut_chunks form.matched, names, ?_⟩
  rw [DistinctNames, names.nodup_iff, List.nodup_append]
  constructor
  · rintro ⟨written, -, apart⟩
    exact ⟨written, fun n made spelled => apart n spelled n made rfl⟩
  · rintro ⟨written, apart⟩
    refine ⟨written, madeUpNames_nodup _, ?_⟩
    rintro n spelled _ made rfl
    exact apart n made spelled

/-- A function with an argument that has a name and one that has none. -/
def sampleMix : Declaration where
  name := "pfnMix"
  returnType := "void"
  args := [.fixed ⟨"value0", "int", none⟩, .fixed ⟨"count", "int", none⟩]
  text := "void (*pfnMix)(int, int count);"
  line := 1

theorem distinctNames_mix : read sampleMix.text sampleMix.text 1 = .ok sampleMix ∧
    sampleMix.DistinctNames ∧ ∃ cut, (writtenNames (shapes cut)).Nodup ∧
      ∀ name ∈ madeUpNames (shapes cut), name ∉ writtenNames (shapes cut) := by
  have done : read sampleMix.text sampleMix.text 1 = .ok sampleMix := by decide +kernel
  have apart : sampleMix.DistinctNames := by decide
  obtain ⟨run, name, args, cut, form, isCut, names, distinct⟩ := distinctNames_iff done
  exact ⟨done, apart, cut, distinct.mp apart⟩

/-- The same function, where the second argument has the name that the first one gets. -/
def sampleClash : Declaration where
  name := "pfnMix"
  returnType := "void"
  args := [.fixed ⟨"value0", "int", none⟩, .fixed ⟨"value0", "int", none⟩]
  text := "void (*pfnMix)(int, int value0);"
  line := 1

/-- One name is written, and one that is equal to it is made up. -/
theorem not_distinct_clash : read sampleClash.text sampleClash.text 1 = .ok sampleClash ∧
    (∃ run name args cut,
      HasForm (Token.scan sampleClash.text.toList 1).tokens run name args ∧ IsCut args cut ∧
        writtenNames (shapes cut) = ["value0"] ∧ madeUpNames (shapes cut) = ["value0"]) ∧
    ¬ sampleClash.DistinctNames := by
  let tokens := (Token.scan sampleClash.text.toList 1).tokens
  let args := (tokens.drop 6).take 4
  have form : HasForm tokens (tokens.take 1) "pfnMix" args := {
    whole := by
      refine ⟨(tokens.drop 1).take 5, tokens.get ⟨10, by decide +kernel⟩, tokens.drop 11, ?_⟩
      and_intros <;> decide +kernel
    nonempty := by decide +kernel
    types := by decide +kernel
    matched := isBalanced_iff.mp (by decide +kernel) }
  refine ⟨by decide +kernel, ⟨_, _, _, _, form, isCut_chunks form.matched, ?_, ?_⟩, by decide⟩
  · decide +kernel
  · decide +kernel

end Declaration

end ScriptGlue
