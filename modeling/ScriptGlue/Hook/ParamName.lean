import ScriptGlue.Hook.Catalogue
import ScriptGlue.Text.Casing

/-!
# Names of hook parameters

Native handlers and script callbacks take the names of their parameters from here, so the two always
line up.
-/
namespace ScriptGlue.Hook

/-- The hooked object in script callbacks. No parameter may have its name. -/
def thisName : String := "this_"

/-- Names chosen by hand for well-known hooks, by lowercase key. -/
def chosenNames? (key : String) : Option (List String) :=
  match Text.lower key with
  | "use" => some ["activator", "caller", "useType", "value"]
  | "takedamage" => some ["inflictor", "attacker", "damage", "damageBits"]
  | "traceattack" => some ["attacker", "damage", "direction", "trace", "damageBits"]
  | "tracebleed" => some ["damage", "direction", "trace", "damageBits"]
  | "killed" => some ["attacker", "gibType"]
  | "giveammo" => some ["amount", "name", "max"]
  | "addpoints" | "addpointstoteam" => some ["score", "allowNegative"]
  | "item_addtoplayer" => some ["player"]
  | "item_addduplicate" => some ["original"]
  | "item_getiteminfo" => some ["itemInfo"]
  | "item_holster" => some ["skipLocal"]
  | "weapon_extractammo" | "weapon_extractclipammo" => some ["weapon"]
  | "ts_goslow" => some ["duration", "mode"]
  | "ts_breakablerespawn" => some ["respawnTime"]
  | _ => none

def placeName (index : Nat) : String := s!"arg{index + 1}"

/-- The name of a parameter before names are told apart: the chosen one, else the default one of its
shape, counted where several parameters have the shape, else its place. -/
def proposedName (key : String) (params : List ParamShape) (index : Nat) : String :=
  match (chosenNames? key).bind (·[index]?) with
  | some name => name
  | none =>
    match params[index]? with
    | none => placeName index
    | some shape =>
      match shape.defaultName? with
      | none => placeName index
      | some base =>
        if 1 < params.countP (· = shape) then
          s!"{base}{(params.take index).countP (· = shape) + 1}"
        else base

/-- The first of the names `base2`, `base3`, … that is not used yet, or `base` if it is not used.
Among one more candidate than there are used names, one is free. -/
def freshName (used : List String) (base : String) : String :=
  if used.contains base then
    let candidates := (List.range (used.length + 1)).map fun k => s!"{base}{k + 2}"
    (candidates.find? (!used.contains ·)).getD base
  else base

/-- Tells names apart, each from those before it. -/
def distinctNames (used : List String) : List String → List String
  | [] => []
  | base :: r =>
    let name := freshName used base
    name :: distinctNames (used ++ [name]) r

def paramNames (key : String) (params : List ParamShape) : List String :=
  distinctNames [thisName] ((List.range params.length).map (proposedName key params))

structure NamedParam where
  shape : ParamShape
  name : String
  deriving DecidableEq, Repr

def Signature.namedParams (s : Signature) : List NamedParam :=
  (s.params.zip (paramNames s.key s.params)).map fun (shape, name) => ⟨shape, name⟩

end ScriptGlue.Hook
