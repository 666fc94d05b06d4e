import ScriptGlue.Hook.DetourFile
import ScriptGlue.Output.TypingFiles
import ScriptGlue.Proofs.Code.Rendering

/-!
# Calls through detours

A detour passes the parameters of a hook on: it takes them, calls the hooked function with them, and
hands them to the listeners before and after. Scripts declare them once more. In all these places
there is one text for each parameter, in order, and each is made from the shape and the name of that
parameter.
-/
namespace ScriptGlue

namespace Code.ListDef

/-- The lines of items, each with a comma but the last. -/
theorem itemLines_ofFn {n : Nat} (item : Fin n → ListedItem) :
    itemLines (List.ofFn item) =
      List.ofFn fun k => itemLine (if k.val + 1 < n then "," else "") (item k) := by
  induction n with
  | zero => rfl
  | succ n ih =>
    cases n with
    | zero => rfl
    | succ n =>
      have more : (List.ofFn fun k : Fin (n + 1) => item k.succ) ≠ [] := by simp
      rw [List.ofFn_succ, itemLines, ih, List.ofFn_succ (n := n + 1)]
      · simp
      · exact fun empty => more empty

end Code.ListDef

namespace Hook

open Code

/-! ### Parameters by place -/

theorem length_distinctNames (used names : List String) :
    (distinctNames used names).length = names.length := by
  induction names generalizing used with
  | nil => rfl
  | cons name r ih => rw [distinctNames, List.length_cons, ih, List.length_cons]

/-- Each parameter has a name. -/
theorem length_paramNames (key : String) (params : List ParamShape) :
    (paramNames key params).length = params.length := by
  rw [paramNames, length_distinctNames, List.length_map, List.length_range]

namespace Signature

variable (s : Signature)

def paramName (k : Fin s.params.length) : String :=
  (paramNames s.key s.params).get (k.cast (length_paramNames s.key s.params).symm)

def perParam (text : ParamShape → String → String) : List String :=
  List.ofFn fun k : Fin s.params.length => text (s.params.get k) (s.paramName k)

theorem map_namedParams (text : ParamShape → String → String) :
    s.namedParams.map (fun p => text p.shape p.name) = s.perParam text := by
  apply List.ext_getElem
  · simp [namedParams, perParam, length_paramNames]
  · intro k inside _
    simp [namedParams, perParam, paramName]

end Signature

/-- Texts behind others are set off from them by commas. -/
theorem intercalate_behind (first : String) (rest more : List String) :
    ", ".intercalate (first :: (rest ++ more)) =
      ", ".intercalate (first :: rest) ++ String.join (more.map (", " ++ ·)) := by
  induction rest generalizing first with
  | nil =>
    induction more generalizing first with
    | nil => simp
    | cons next r ih =>
      have later := ih next
      rw [List.nil_append] at later ⊢
      rw [String.intercalate_cons_cons, later]
      simp [String.append_assoc]
  | cons next r ih =>
    rw [List.cons_append, String.intercalate_cons_cons, ih, String.intercalate_cons_cons,
      ← String.append_assoc]

/-! ### The places of a call -/

/-- A parameter in front of those of the hook: how it is declared, its type, and what is passed on
for it. -/
structure Lead where
  decl : String
  type : String
  arg : String

namespace Lead

def this : Lead := ⟨"void* pthis", "void*", "pthis"⟩

/-- Where a vector is returned. -/
def out : Lead := ⟨"float* out", "float*", "origVec"⟩

end Lead

namespace Signature

variable (s : Signature)

/-- A part of a detour. A vector is returned through a parameter, which stands behind the hooked
object on one platform and before it on the others. -/
def onPlatforms (part : List Lead → Layout) : Layout :=
  if s.returnsVector then perPlatform (part [.this, .out]) (part [.out, .this])
  else part [.this]

def takenParams (leads : List Lead) : List String :=
  "Hook* hook" :: leads.map (·.decl) ++ s.perParam fun shape name => s!"{shape.nativeType} {name}"

def passedTypes (leads : List Lead) : List String :=
  leads.map (·.type) ++ s.perParam fun shape _ => shape.nativeType

def passedArgs (leads : List Lead) : List String :=
  leads.map (·.arg) ++ s.perParam fun _ name => name

def listenerArgs : List String := s.perParam fun shape name => shape.scriptValue name

def callbackDecls : List String :=
  "this_: Entity" :: s.perParam fun shape name => s!"{name}: {shape.scriptType}"

def headLine (leads : List Lead) : String :=
  let params := ", ".intercalate (s.takenParams leads)
  s!"{s.returns.nativeType} Hook_{s.key}({params})" ++ " \x7b"

def callLines (leads : List Lead) : List String :=
  let types := ", ".intercalate (s.passedTypes leads)
  let args := ", ".intercalate (s.passedArgs leads)
  let call := s!"orig({args});"
  [s!"typedef {s.returns.nativeType} (*OrigFunc)({types});",
    "OrigFunc orig = reinterpret_cast<OrigFunc>(hook->getOriginalFunction());",
    if s.returns.nativeType = "void" then call else s!"origret = {call}"]

@[simp] theorem length_perParam (text : ParamShape → String → String) :
    (s.perParam text).length = s.params.length := List.length_ofFn

/-- In each place of a call there is one text for each parameter. -/
theorem length_places (leads : List Lead) :
    (s.takenParams leads).length = 1 + leads.length + s.params.length ∧
      (s.passedTypes leads).length = leads.length + s.params.length ∧
      (s.passedArgs leads).length = leads.length + s.params.length ∧
      s.listenerArgs.length = s.params.length ∧
      s.callbackDecls.length = 1 + s.params.length := by
  simp [takenParams, passedTypes, passedArgs, listenerArgs, callbackDecls]
  omega

theorem paramDecls_eq : s.paramDecls =
    (s.perParam fun shape name => s!"{shape.nativeType} {name}").map (", " ++ ·) := by
  rw [paramDecls, ← map_namedParams, List.map_map]
  refine List.map_congr_left fun p _ => ?_
  simp [toString, String.append_assoc]

theorem callTypes_eq : s.callTypes = s.perParam fun shape _ => shape.nativeType :=
  s.map_namedParams fun shape _ => shape.nativeType

theorem callArgs_eq : s.callArgs = s.perParam fun _ name => name :=
  s.map_namedParams fun _ name => name

theorem extraArgs_eq : s.extraArgs = s.listenerArgs :=
  s.map_namedParams fun shape name => shape.scriptValue name

/-- The head of a detour names its result and takes what leads, then one parameter after the other.
-/
theorem headLine_eq (leads : List Lead) : s.headLine leads =
    s!"{s.returns.nativeType} {detourSymbol s.key}(" ++
      ", ".intercalate ("Hook* hook" :: leads.map (·.decl)) ++ String.join s.paramDecls ++
        ")" ++ " \x7b" := by
  rw [headLine, takenParams, List.cons_append, intercalate_behind, paramDecls_eq]
  apply String.toList_injective
  simp [detourSymbol, toString]

/-- The hooked function is called with what leads, then the parameters. -/
theorem hookedCall_eq (returns : String) (leads : List Lead)
    (spelled : s.returns.nativeType = returns) :
    hookedCall returns (leads.map (·.type)) (leads.map (·.arg)) s =
      Layout.ofLines (s.callLines leads) := by
  rw [hookedCall, callTypes_eq, callArgs_eq, ← spelled]
  rfl

theorem detourHead_eq :
    detourHead s = s.onPlatforms (fun leads => [.line (s.headLine leads)]) ++ [.enter] := by
  have spelled := s.headLine_eq
  unfold detourHead onPlatforms
  dsimp only
  generalize String.join s.paramDecls = params at spelled ⊢
  by_cases vector : s.returnsVector = true
  · have returns : s.returns.nativeType = "void" := by
      rw [beq_iff_eq.mp vector]
      rfl
    have windows : s.headLine [.this, .out] =
        s!"void {detourSymbol s.key}(Hook* hook, void* pthis, float* out{params})" ++ " \x7b" := by
      rw [spelled, returns]
      apply String.toList_injective
      simp [toString, Lead.this, Lead.out]
    have others : s.headLine [.out, .this] =
        s!"void {detourSymbol s.key}(Hook* hook, float* out, void* pthis{params})" ++ " \x7b" := by
      rw [spelled, returns]
      apply String.toList_injective
      simp [toString, Lead.this, Lead.out]
    simp only [if_pos vector, windows, others]
  · have single : s.headLine [.this] =
        s!"{s.returns.nativeType} {detourSymbol s.key}(Hook* hook, void* pthis{params})" ++
          " \x7b" := by
      rw [spelled]
      apply String.toList_injective
      simp [toString, Lead.this]
    simp only [if_neg vector, single]
    rfl

theorem detourCall_eq :
    detourCall s = s.onPlatforms fun leads => Layout.ofLines (s.callLines leads) := by
  unfold detourCall onPlatforms
  by_cases vector : s.returnsVector = true
  · have returns : s.returns.nativeType = "void" := by
      rw [beq_iff_eq.mp vector]
      rfl
    rw [if_pos vector, if_pos vector]
    exact congrArg₂ perPlatform (s.hookedCall_eq "void" [.this, .out] returns)
      (s.hookedCall_eq "void" [.out, .this] returns)
  · rw [if_neg vector, if_neg vector]
    exact s.hookedCall_eq _ [.this] rfl

/-- The listeners before and after get the same array. Without parameters there is none. -/
theorem listenerChain_eq (before : Bool) : listenerChain s before =
    let flag := if before then "true" else "false"
    let side := if before then "pre" else "post"
    if s.params.length = 0 then [.line s!"executeCallbacks(hook, pthis, {flag});"]
    else
      .line s!"// Execute {side}-callbacks with parameters" ::
        withIsolate
          (Layout.blank ::
            Layout.block (s!"v8::Local<v8::Value> extraArgs[{s.params.length}]" ++ " =")
              (Layout.ofLines (ListDef.rows s.listenerArgs)) "\x7d;" ++
            [.line s!"executeCallbacksWithArgs(hook, pthis, {flag}, isolate, extraArgs);"]) := by
  unfold listenerChain
  by_cases none : s.params = []
  · simp [none]
  · have some : ¬ s.params.length = 0 := by simpa using none
    have filled : ¬ s.params.isEmpty = true := by simpa using none
    rw [if_neg filled]
    dsimp only
    rw [if_neg some, ListDef.layout, ListDef.itemLines_eq, extraArgs_eq]
    rfl

end Signature

/-! ### Hooks by place -/

namespace Entry

def slotLine (e : Entry) (comma : String) : String :=
  match e.signature with
  | some s => s!"reinterpret_cast<void*>(Hook_{s.key}){comma} // {e.id} {e.name}"
  | none => s!"nullptr{comma} // {e.id} {e.name} (no signature)"

def callbackText (e : Entry) : String :=
  match e.signature with
  | some s =>
    let params := ", ".intercalate s.callbackDecls
    s!"({params}) => HAM_RESULT | {s.returns.scriptType}"
  | none => "(this_: Entity) => HAM_RESULT | void"

theorem itemLine_detourItem (e : Entry) (comma : String) :
    ListDef.itemLine comma e.detourItem = .line (e.slotLine comma) := by
  unfold detourItem slotLine
  cases e.signature with
  | some s =>
    refine congrArg Step.line (String.toList_injective ?_)
    simp [detourSymbol, toString]
  | none =>
    refine congrArg Step.line (String.toList_injective ?_)
    simp [toString]

theorem callbackType_eq (e : Entry) : Output.callbackType e = e.callbackText := by
  unfold Output.callbackType callbackText
  cases e.signature with
  | none =>
    apply String.toList_injective
    simp [thisName, toString]
  | some s =>
    have params : Output.callbackParams s = s.perParam fun shape name =>
        s!"{name}: {shape.scriptType}" :=
      s.map_namedParams fun shape name => s!"{name}: {shape.scriptType}"
    simp only [params]
    rfl

end Entry

namespace Catalogue

variable (c : Catalogue)

def perEntry {α : Type} (text : Entry → α) : List α :=
  List.ofFn fun i : Fin c.entries.length => text (c.entries.get i)

theorem map_entries {α : Type} (text : Entry → α) : c.entries.map text = c.perEntry text := by
  apply List.ext_getElem
  · simp [perEntry]
  · intro i inside _
    simp [perEntry]

end Catalogue

end Hook

end ScriptGlue
