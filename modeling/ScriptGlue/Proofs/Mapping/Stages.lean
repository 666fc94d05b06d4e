import ScriptGlue.Proofs.Mapping.Templates

/-!
# Stages of the lookup

Both conversions and the script type of a native type come from one row, which is looked up in three
stages by nothing but the canonical spelling: the spelling itself, the structure behind at most one
star, and what a single star leads to.
-/
namespace ScriptGlue.Mapping

/-! ### Tables -/

/-- In a table with distinct keys, every pair is found. -/
theorem lookup_iff {α β : Type} [BEq α] [LawfulBEq α] {l : List (α × β)}
    (distinct : (l.map (·.1)).Nodup) {key : α} {b : β} :
    l.lookup key = some b ↔ (key, b) ∈ l := by
  refine ⟨mem_of_lookup, fun member => ?_⟩
  induction l with
  | nil => cases member
  | cons pair r ih =>
    rw [List.map_cons, List.nodup_cons] at distinct
    rcases List.mem_cons.mp member with rfl | later
    · simp
    · have other : (key == pair.1) = false := by
        rw [beq_eq_false_iff_ne]
        rintro rfl
        exact distinct.1 (List.mem_map.mpr ⟨_, later, rfl⟩)
      rw [List.lookup_cons, other]
      exact ih distinct.2 later

/-- A key is missing where no pair has it. -/
theorem lookup_none_iff {α β : Type} [BEq α] [LawfulBEq α] {l : List (α × β)}
    (distinct : (l.map (·.1)).Nodup) {key : α} :
    l.lookup key = none ↔ ∀ b, (key, b) ∉ l := by
  rw [Option.eq_none_iff_forall_ne_some]
  exact forall_congr' fun b => not_congr (lookup_iff distinct)

theorem distinct_basicRows : (basicRows.map (·.1)).Nodup := by decide +kernel

theorem distinct_recordRows : (recordRows.map (·.1)).Nodup := by decide +kernel

theorem distinct_pointerRows : (pointerRows.map (·.1)).Nodup := by decide +kernel

/-- The row that a spelling is mapped by, if any. -/
inductive Stage (spelling : String) : Option Row → Prop
  | exact {row : BasicRow} (listed : (spelling, row) ∈ basicRows) :
      Stage spelling (some (.basic row))
  | record {row : RecordRow} (other : ∀ row, (spelling, row) ∉ basicRows)
      (depth : pointerDepth spelling ≤ 1) (listed : (baseName spelling, row) ∈ recordRows) :
      Stage spelling (some (.record row))
  | pointer {row : PointerRow} (other : ∀ row, (spelling, row) ∉ basicRows)
      (depth : pointerDepth spelling = 1) (noRecord : ∀ row, (baseName spelling, row) ∉ recordRows)
      (listed : (baseName spelling, row) ∈ pointerRows) : Stage spelling (some (.pointer row))
  | deep (other : ∀ row, (spelling, row) ∉ basicRows) (depth : 1 < pointerDepth spelling) :
      Stage spelling none
  | unlisted (other : ∀ row, (spelling, row) ∉ basicRows) (depth : pointerDepth spelling ≤ 1)
      (noRecord : ∀ row, (baseName spelling, row) ∉ recordRows)
      (noPointer : pointerDepth spelling = 1 → ∀ row, (baseName spelling, row) ∉ pointerRows) :
      Stage spelling none

theorem stage_row? (type : String) : Stage (canonical type) (row? type) := by
  unfold row?
  dsimp only
  split
  · rename_i row found
    exact .exact (mem_of_lookup found)
  rename_i noBasic
  have other := (lookup_none_iff distinct_basicRows).mp noBasic
  split
  · rename_i deep
    exact .deep other (by simpa using deep)
  rename_i depth
  split
  · rename_i row found
    exact .record other (by simpa using depth) (by simpa using mem_of_lookup found)
  rename_i unlisted
  have noRecord := (lookup_none_iff distinct_recordRows).mp unlisted
  split
  · rename_i single
    cases found : pointerRows.lookup (baseName type) with
    | some row =>
      exact .pointer other (by simpa using single) (by simpa using noRecord)
        (by simpa using mem_of_lookup found)
    | none =>
      have noPointer := (lookup_none_iff distinct_pointerRows).mp found
      exact .unlisted other (by simpa using depth) (by simpa using noRecord)
        fun _ => by simpa using noPointer
  · rename_i single
    exact .unlisted other (by simpa using depth) (by simpa using noRecord)
      fun one => absurd (by simpa using one) single

theorem row?_of_stage {type : String} {row : Option Row} (stage : Stage (canonical type) row) :
    row? type = row := by
  unfold row?
  dsimp only
  cases stage with
  | exact listed => rw [(lookup_iff distinct_basicRows).mpr listed]
  | record other depth listed =>
    rw [baseName_canonical] at listed
    rw [pointerDepth_canonical] at depth
    rw [(lookup_none_iff distinct_basicRows).mpr other, (lookup_iff distinct_recordRows).mpr listed]
    exact if_neg (by omega)
  | pointer other depth noRecord listed =>
    rw [baseName_canonical] at noRecord listed
    rw [pointerDepth_canonical] at depth
    rw [(lookup_none_iff distinct_basicRows).mpr other,
      (lookup_none_iff distinct_recordRows).mpr noRecord,
      (lookup_iff distinct_pointerRows).mpr listed]
    simp [depth]
  | deep other depth =>
    rw [pointerDepth_canonical] at depth
    rw [(lookup_none_iff distinct_basicRows).mpr other]
    exact if_pos depth
  | unlisted other depth noRecord noPointer =>
    rw [baseName_canonical] at noRecord noPointer
    rw [pointerDepth_canonical] at depth noPointer
    rw [(lookup_none_iff distinct_basicRows).mpr other,
      (lookup_none_iff distinct_recordRows).mpr noRecord]
    dsimp only
    rw [if_neg (by omega)]
    split
    · rename_i single
      rw [(lookup_none_iff distinct_pointerRows).mpr (noPointer single)]
      rfl
    · rfl

/-- A spelling has exactly one stage. -/
theorem stage_iff {type : String} {row : Option Row} :
    Stage (canonical type) row ↔ row = row? type := by
  refine ⟨fun stage => (row?_of_stage stage).symm, ?_⟩
  rintro rfl
  exact stage_row? type

/-- Types that are spelled alike have one row. -/
theorem row?_congr {other type : String} (same : canonical other = canonical type) :
    row? other = row? type :=
  row?_of_stage (same ▸ stage_row? type)

/-! ### Conversions of rows -/

namespace Row

def declared : Row → String
  | basic row => row.declared
  | record row => row.declared
  | pointer row => row.declared

def nativeExpr (spelling value name : String) : Row → String
  | basic row => fill row.toNative value name spelling none
  | record row =>
    let call := s!"structures::unwrap{row.wrapper}(isolate, {value})"
    if pointerDepth spelling = 0 then s!"*({spelling}*){call}" else s!"({spelling}){call}"
  | pointer row => fill row.toNative value name spelling none

/-- The number of elements that is taken for lack of a known one. -/
def assumedLength : Row → Option Nat
  | pointer row => if takesLength row.toScript then row.defaultLength else none
  | _ => none

def scriptExpr (spelling value : String) (length : Option String) : Row → String
  | basic row => fill row.toScript value "" spelling none
  | record row => wrap row spelling value
  | pointer row =>
    fill row.toScript value "" spelling
      (length <|> (Row.assumedLength (.pointer row)).map toString)

end Row

/-- Where a conversion comes from, if its type has the row. -/
def sourceOf : Option Row → Source
  | some row => row.source
  | none => .unknown

variable {type : String} {row : Row}

/-- What has a row is converted back by it. -/
theorem toNative_eq (found : row? type = some row) (value name : String) :
    (toNative type value name).value =
      ⟨row.nativeExpr (canonical type) value name, row.source, none⟩ := by
  unfold toNative
  rw [found]
  cases row with
  | basic | pointer => rfl
  | record row =>
    simp only [Row.nativeExpr, pointerDepth_canonical]
    rfl

/-- A pointer is converted by the expression of its row. Its length is assumed where none is given.
-/
theorem pointerOut_eq (row : PointerRow) (spelling value : String) (length : Option String) :
    pointerOut row spelling value length =
      ⟨(Row.pointer row).scriptExpr spelling value length, .pointer,
        if length = none then (Row.pointer row).assumedLength else none⟩ := by
  cases length with
  | some l => rfl
  | none =>
    unfold pointerOut
    by_cases takes : takesLength row.toScript = true
    · simp [Row.scriptExpr, Row.assumedLength, takes]
    · simp [Row.scriptExpr, Row.assumedLength, takes]

/-- What has a row is converted by it, whatever kind of row that is. -/
theorem toScript_eq (found : row? type = some row) (value : String) (length : Option String) :
    (toScript type value length).value =
      ⟨row.scriptExpr (canonical type) value length, row.source,
        if length = none then row.assumedLength else none⟩ := by
  unfold toScript
  rw [found]
  cases row with
  | basic | record => simp [Row.scriptExpr, Row.assumedLength, Row.source]
  | pointer row => exact pointerOut_eq row (canonical type) value length

theorem toNative_unknown (found : row? type = none) (value name : String) :
    (toNative type value name).value.source = .unknown := by
  unfold toNative
  rw [found]
  rfl

/-- What has no row is told as unknown, and no length is assumed for it. -/
theorem toScript_unknown (found : row? type = none) (value : String) (length : Option String) :
    (toScript type value length).value.source = .unknown ∧
      (toScript type value length).value.assumedLength = none := by
  unfold toScript
  rw [found]
  exact ⟨rfl, rfl⟩

theorem source_ne_unknown (row : Row) : row.source ≠ .unknown := by
  cases row <;> exact fun same => Source.noConfusion same

/-! ### Script types -/

/-- The type without values has no row. -/
theorem canonical_ne_void (found : row? type = some row) : canonical type ≠ "void" := by
  intro void
  have spelled : canonical "void" = canonical type := by
    rw [void]
    decide +kernel
  have unlisted : row? "void" = none := by decide +kernel
  rw [row?_congr spelled, found] at unlisted
  cases unlisted

theorem declaredType_eq (found : row? type = some row) : declaredType type = row.declared := by
  unfold declaredType
  rw [if_neg (canonical_ne_void found), found]
  cases row <;> rfl

/-- Without a row, the declared type depends on whether there is a star. -/
theorem declaredType_unknown (found : row? type = none) : declaredType type =
    if canonical type = "void" then "void"
    else if '*' ∈ type.toList then opaqueMemory else "unknown" := by
  unfold declaredType
  rw [found]
  simp only [pointerDepth, List.count_pos_iff]

/-! ### Braces -/

/-- Expressions of basic rows hold no marks but those that are filled in. -/
theorem basicRows_marks : ∀ pair ∈ basicRows, hasOnly [] pair.1.toList = true ∧
    hasOnly (marksOf false) pair.2.toNative.toList = true ∧
      hasOnly (marksOf false) pair.2.toScript.toList = true := by
  simp only [basicRows, List.forall_mem_cons, List.not_mem_nil, false_implies, implies_true,
    and_true]
  and_intros
  all_goals first
    | exact hasOnly_spelled rfl rfl
    | exact hasOnly_cast rfl rfl (hasOnly_spelled rfl rfl)

/-- The names in record rows hold no marks. -/
theorem recordRows_marks : ∀ pair ∈ recordRows, hasOnly [] pair.1.toList = true ∧
    hasOnly [] pair.2.wrapper.toList = true ∧
      ∀ cast ∈ pair.2.constCast, hasOnly [] cast.toList = true := by
  simp only [recordRows, List.forall_mem_cons, List.not_mem_nil, false_implies, implies_true,
    and_true, Option.mem_def, Option.some.injEq, forall_eq', reduceCtorEq]
  and_intros
  all_goals exact hasOnly_spelled rfl rfl

/-- The expressions of a pointer have a mark for a length exactly if there is one for lack of a
known one. -/
theorem pointerRows_marks : ∀ pair ∈ pointerRows, hasOnly [] pair.1.toList = true ∧
    hasOnly (marksOf false) pair.2.toNative.toList = true ∧
      hasOnly (marksOf pair.2.defaultLength.isSome) pair.2.toScript.toList = true := by
  simp only [pointerRows, List.forall_mem_cons, List.not_mem_nil, false_implies, implies_true,
    and_true]
  and_intros
  all_goals first
    | exact hasOnly_spelled rfl rfl
    | exact hasOnly_cast rfl rfl (hasOnly_spelled rfl rfl)

/-- They ask for it as the last argument of a call. -/
theorem pointerRows_length : ∀ pair ∈ pointerRows,
    takesLength pair.2.toScript = pair.2.defaultLength.isSome ∧
      ∀ n ∈ pair.2.defaultLength, ", {len})".toList <:+ pair.2.toScript.toList ∧
        '{' ∉ (toString n).toList := by
  simp only [pointerRows, List.forall_mem_cons, List.not_mem_nil, false_implies, implies_true,
    and_true, Option.mem_def, Option.some.injEq, forall_eq', reduceCtorEq]
  and_intros
  all_goals first
    | exact takesLength_spelled rfl rfl
    | exact isSuffix_spelled rfl rfl rfl
    | decide

theorem brace_not_mem_canonical (found : row? type = some row) : '{' ∉ (canonical type).toList := by
  have fromBase (clean : '{' ∉ (baseName type).toList) : '{' ∉ (canonical type).toList := by
    intro member
    rcases mem_canonical member with parts | const | struct | base
    · exact absurd parts (by decide)
    · exact absurd const (by decide)
    · exact absurd struct (by decide)
    · exact clean base
  rcases row?_cases found with ⟨basic, member, -⟩ | ⟨record, member, -⟩ | ⟨pointer, member, -⟩
  · exact brace_not_mem_of_hasOnly (basicRows_marks _ member).1
  · exact fromBase (brace_not_mem_of_hasOnly (recordRows_marks _ member).1)
  · exact fromBase (brace_not_mem_of_hasOnly (pointerRows_marks _ member).1)

theorem brace_not_mem_nativeExpr (found : row? type = some row) {value name : String}
    (plainValue : '{' ∉ value.toList) (plainName : '{' ∉ name.toList) :
    '{' ∉ (row.nativeExpr (canonical type) value name).toList := by
  have plainType := brace_not_mem_canonical found
  rcases row?_cases found with ⟨basic, member, rfl⟩ | ⟨record, member, rfl⟩ | ⟨pointer, member, rfl⟩
  · exact brace_not_mem_fill (basicRows_marks _ member).2.1 plainValue plainName plainType (by simp)
  · have plainWrapper := brace_not_mem_of_hasOnly (recordRows_marks _ member).2.1
    unfold Row.nativeExpr
    dsimp only
    split <;> simp [toString, plainValue, plainType, plainWrapper]
  · exact brace_not_mem_fill (pointerRows_marks _ member).2.1 plainValue plainName plainType (by simp)

theorem brace_not_mem_wrap {record : RecordRow} (plainWrapper : '{' ∉ record.wrapper.toList)
    (plainCast : ∀ cast ∈ record.constCast, '{' ∉ cast.toList) (spelling : String) {value : String}
    (plainValue : '{' ∉ value.toList) : '{' ∉ (wrap record spelling value).toList := by
  unfold wrap
  cases cast : record.constCast with
  | none => simp [toString, plainValue, plainWrapper]
  | some cast' =>
    have plain := plainCast cast' cast
    dsimp only
    split <;> simp [toString, plainValue, plainWrapper, plain]

theorem mem_pointerRows {pointer : PointerRow} (found : row? type = some (.pointer pointer)) :
    ∃ key, (key, pointer) ∈ pointerRows := by
  rcases row?_cases found with ⟨row, -, same⟩ | ⟨row, -, same⟩ | ⟨row, member, same⟩
  · cases same
  · cases same
  · cases same
    exact ⟨_, member⟩

/-- Where a pointer has a length for lack of a known one, it is asked for. -/
theorem assumedLength_eq {pointer : PointerRow} (found : row? type = some (.pointer pointer)) :
    (Row.pointer pointer).assumedLength = pointer.defaultLength := by
  obtain ⟨key, member⟩ := mem_pointerRows found
  have takes := (pointerRows_length _ member).1
  unfold Row.assumedLength
  dsimp only at takes ⊢
  rw [takes]
  cases pointer.defaultLength <;> rfl

/-- No mark is left in the expression of a row once it is filled in. -/
theorem brace_not_mem_scriptExpr (found : row? type = some row) {value : String}
    {length : Option String} (plainValue : '{' ∉ value.toList)
    (plainLength : ∀ l ∈ length, '{' ∉ l.toList) :
    '{' ∉ (row.scriptExpr (canonical type) value length).toList := by
  have plainType := brace_not_mem_canonical found
  have plainName : '{' ∉ "".toList := by decide
  rcases row?_cases found with ⟨basic, member, rfl⟩ | ⟨record, member, rfl⟩ | ⟨pointer, member, rfl⟩
  · exact brace_not_mem_fill (basicRows_marks _ member).2.2 plainValue plainName plainType (by simp)
  · obtain ⟨-, plainWrapper, plainCast⟩ := recordRows_marks _ member
    exact brace_not_mem_wrap (brace_not_mem_of_hasOnly plainWrapper)
      (fun cast known => brace_not_mem_of_hasOnly (plainCast cast known)) _ plainValue
  · have only := (pointerRows_marks _ member).2.2
    have last := (pointerRows_length _ member).2
    dsimp only at only last
    unfold Row.scriptExpr
    dsimp only
    cases length with
    | some l =>
      have more : marksOf pointer.defaultLength.isSome ⊆ marksOf true := by
        cases pointer.defaultLength.isSome <;> simp [marksOf]
      exact brace_not_mem_fill (hasOnly_mono more only) plainValue plainName plainType plainLength
    | none =>
      rw [assumedLength_eq found]
      refine brace_not_mem_fill (by simpa using only) plainValue plainName plainType ?_
      intro l known
      obtain ⟨n, assumed, rfl⟩ := Option.map_eq_some_iff.mp known
      exact (last n assumed).2

/-! ### All conversions -/

/-- What the conversions and the script type of a native type have to do with its row. -/
structure IsStaged (type value name : String) (length : Option String) (found : Option Row) :
    Prop where
  /-- There is exactly one row or none, and it depends on the canonical spelling alone. -/
  stage : ∀ row, Stage (canonical type) row ↔ row = found
  canonical_eq : canonical (canonical type) = canonical type
  script_source : (toScript type value length).value.source = sourceOf found
  native_source : (toNative type value name).value.source = sourceOf found
  unknown_iff : (toScript type value length).value.source = .unknown ↔ found = none
  script_expr : ∀ row ∈ found, (toScript type value length).value.expr =
    row.scriptExpr (canonical type) value length
  native_expr : ∀ row ∈ found, (toNative type value name).value.expr =
    row.nativeExpr (canonical type) value name
  declared : declaredType type =
    match found with
    | some row => row.declared
    | none =>
      if canonical type = "void" then "void"
      else if '*' ∈ type.toList then opaqueMemory else "unknown"
  /-- Another type of the same spelling is converted alike. -/
  spelled : ∀ other, canonical other = canonical type →
    (toScript other value length).value.source = (toScript type value length).value.source ∧
      (toNative other value name).value.source = (toNative type value name).value.source ∧
        declaredType other = declaredType type ∧ (found ≠ none →
          (toScript other value length).value = (toScript type value length).value ∧
            (toNative other value name).value = (toNative type value name).value)
  /-- A length is assumed if the expression of a pointer asks for one and none is given. -/
  assumes : (toScript type value length).value.assumedLength.isSome = true ↔
    length = none ∧ ∃ row, found = some (.pointer row) ∧ takesLength row.toScript = true
  /-- It is the one of the row, and is the last argument in the expression, which is as it would be
  if the length had been given. -/
  assumed : ∀ n ∈ (toScript type value length).value.assumedLength,
    (∃ row, found = some (.pointer row) ∧ row.defaultLength = some n) ∧
      (toScript type value (some (toString n))).value.expr =
        (toScript type value length).value.expr ∧
        ∃ lead, (toScript type value length).value.expr = lead ++ s!", {n})"
  /-- No mark is left in an expression, and no brace, if nothing that is filled in has one. -/
  filled : found ≠ none → '{' ∉ value.toList → '{' ∉ name.toList →
    (∀ l ∈ length, '{' ∉ l.toList) →
      '{' ∉ (toScript type value length).value.expr.toList ∧
        '{' ∉ (toNative type value name).value.expr.toList

/-- A length that is assumed is the one of a pointer that asks for it. -/
theorem assumedLength_cases {n : Nat} (assumed : row.assumedLength = some n) :
    ∃ pointer, row = .pointer pointer ∧ takesLength pointer.toScript = true ∧
      pointer.defaultLength = some n := by
  cases row with
  | basic | record => cases assumed
  | pointer pointer =>
    unfold Row.assumedLength at assumed
    dsimp only at assumed
    split at assumed
    · rename_i asks
      exact ⟨pointer, rfl, asks, assumed⟩
    · cases assumed

/-- A length is assumed exactly for the pointers whose expression asks for one. -/
theorem assumedLength_isSome_iff (found : row? type = some row) :
    row.assumedLength.isSome = true ↔
      ∃ pointer, row = .pointer pointer ∧ takesLength pointer.toScript = true := by
  constructor
  · intro present
    obtain ⟨n, assumed⟩ := Option.isSome_iff_exists.mp present
    obtain ⟨pointer, isPointer, asks, -⟩ := assumedLength_cases assumed
    exact ⟨pointer, isPointer, asks⟩
  · rintro ⟨pointer, rfl, asks⟩
    obtain ⟨key, member⟩ := mem_pointerRows found
    rw [assumedLength_eq found, ← (pointerRows_length _ member).1]
    exact asks

/-- An assumed length is the last argument in the expression, which is as it would be if the length
had been given. -/
theorem scriptExpr_assumed (found : row? type = some row) {n : Nat}
    (assumed : row.assumedLength = some n) (value : String) :
    row.scriptExpr (canonical type) value (some (toString n)) =
        row.scriptExpr (canonical type) value none ∧
      ∃ lead, row.scriptExpr (canonical type) value none = lead ++ s!", {n})" := by
  obtain ⟨pointer, rfl, -, default⟩ := assumedLength_cases assumed
  obtain ⟨key, member⟩ := mem_pointerRows found
  have ends := ((pointerRows_length _ member).2 n default).1
  have filled : (Row.pointer pointer).scriptExpr (canonical type) value none =
      fill pointer.toScript value "" (canonical type) (some (toString n)) := by
    unfold Row.scriptExpr
    dsimp only
    rw [assumed]
    rfl
  rw [filled]
  exact ⟨rfl, exists_fill_length ends _ _ _ _⟩

theorem isStaged_of_row (found : row? type = some row) (value name : String)
    (length : Option String) : IsStaged type value name length (some row) := by
  have script := toScript_eq found value length
  have native := toNative_eq found value name
  exact {
    stage := fun r => by rw [stage_iff, found]
    canonical_eq := canonical_canonical type
    script_source := by rw [script]; rfl
    native_source := by rw [native]; rfl
    unknown_iff := by
      rw [script]
      exact iff_of_false (source_ne_unknown row) (Option.some_ne_none row)
    script_expr := fun r same => by rw [script, Option.mem_some_iff.mp same]
    native_expr := fun r same => by rw [native, Option.mem_some_iff.mp same]
    declared := declaredType_eq found
    spelled := by
      intro other same
      have found' := (row?_congr same).trans found
      have script' := toScript_eq found' value length
      have native' := toNative_eq found' value name
      rw [same] at script' native'
      rw [script, script', native, native', declaredType_eq found, declaredType_eq found']
      exact ⟨rfl, rfl, rfl, fun _ => ⟨rfl, rfl⟩⟩
    assumes := by
      rw [script]
      dsimp only
      split
      · rename_i missing
        simp only [assumedLength_isSome_iff found, missing, Option.some.injEq, true_and]
      · rename_i given
        exact iff_of_false (by simp) fun both => given both.1
    assumed := by
      intro n assumed
      rw [script] at assumed
      dsimp only at assumed
      split at assumed
      · rename_i missing
        obtain ⟨pointer, isPointer, -, default⟩ := assumedLength_cases assumed
        rw [script, toScript_eq found, missing]
        exact ⟨⟨pointer, congrArg _ isPointer, default⟩, scriptExpr_assumed found assumed value⟩
      · cases assumed
    filled := by
      intro _ plainValue plainName plainLength
      rw [script, native]
      exact ⟨brace_not_mem_scriptExpr found plainValue plainLength,
        brace_not_mem_nativeExpr found plainValue plainName⟩ }

theorem isStaged_of_unknown (found : row? type = none) (value name : String)
    (length : Option String) : IsStaged type value name length none := by
  obtain ⟨source, assumes⟩ := toScript_unknown found value length
  exact {
    stage := fun r => by rw [stage_iff, found]
    canonical_eq := canonical_canonical type
    script_source := source
    native_source := toNative_unknown found value name
    unknown_iff := iff_of_true source rfl
    script_expr := fun r same => by cases same
    native_expr := fun r same => by cases same
    declared := declaredType_unknown found
    spelled := by
      intro other same
      have found' := (row?_congr same).trans found
      have depth : '*' ∈ other.toList ↔ '*' ∈ type.toList := by
        rw [← List.count_pos_iff, ← List.count_pos_iff]
        change 0 < pointerDepth other ↔ 0 < pointerDepth type
        rw [← pointerDepth_canonical other, same, pointerDepth_canonical]
      rw [source, (toScript_unknown found' value length).1, toNative_unknown found,
        toNative_unknown found', declaredType_unknown found, declaredType_unknown found', same]
      simp only [depth, true_and]
      exact fun known => absurd rfl known
    assumes := by
      rw [assumes]
      simp
    assumed := by
      rw [assumes]
      simp
    filled := fun known => absurd rfl known }

/-- Every native type is converted by one row that its canonical spelling leads to, or by none. -/
theorem exists_staged (type value name : String) (length : Option String) :
    ∃ found, IsStaged type value name length found := by
  cases found : row? type with
  | some row => exact ⟨some row, isStaged_of_row found value name length⟩
  | none => exact ⟨none, isStaged_of_unknown found value name length⟩

end ScriptGlue.Mapping
