/-!
# Shapes of records

What scripts see of the wrapped structures of the engine: named properties with types.
-/
namespace ScriptGlue

structure RecordProperty where
  name : String
  type : String
  deriving DecidableEq, Repr

structure RecordShape where
  name : String
  properties : List RecordProperty := []
  /-- Remarks in place of properties. -/
  notes : List String := []
  deriving DecidableEq, Repr

namespace RecordShape

/-- The sources of wrappers without their ending, and the structures that they wrap. -/
def sources : List (String × String) :=
  [("entvars", "Entvars"), ("clientdata", "ClientData"), ("entitystate", "EntityState"),
    ("usercmd", "UserCmd"), ("netadr", "NetAdr"), ("weapondata", "WeaponData"),
    ("playermove", "PlayerMove"), ("customization", "Customization"),
    ("keyvaluedata", "KeyValueData"), ("saverestoredata", "SaveRestoreData"),
    ("typedescription", "TypeDescription"), ("delta", "Delta"), ("cvar", "Cvar"),
    ("trace_result", "TraceResult")]

/-- What is written where a structure shows nothing. -/
def emptyNotes (name : String) : List String :=
  if name = "Delta" then
    ["Delta compression structure - internal engine type",
      "Fields not exposed in public SDK headers"]
  else []

/-- A structure with the given properties, with a remark if it is known to have none. -/
def ofProperties (name : String) (properties : List RecordProperty) : RecordShape :=
  ⟨name, properties, if properties.isEmpty then emptyNotes name else []⟩

def entityVectors : List String :=
  ["origin", "oldorigin", "velocity", "basevelocity", "clbasevelocity", "movedir", "angles",
    "avelocity", "punchangle", "angle", "endpos", "startpos", "absmin", "absmax", "mins", "maxs",
    "size", "rendercolor", "viewOfs"]

def entityStrings : List String :=
  ["classname", "globalname", "model", "target", "targetname", "netname", "message", "noise",
    "noise1", "noise2", "noise3"]

def entityNames : List String :=
  ["id", "classname", "globalname", "origin", "oldorigin", "velocity", "basevelocity",
    "clbasevelocity", "movedir", "angles", "avelocity", "punchangle", "angle", "endpos", "startpos",
    "impacttime", "starttime", "fixangle", "idealpitch", "pitchSpeed", "idealYaw", "yawSpeed",
    "modelindex", "model", "viewmodel", "weaponmodel", "absmin", "absmax", "mins", "maxs", "size",
    "ltime", "nextthink", "movetype", "solid", "skin", "body", "effects", "gravity", "friction",
    "lightLevel", "sequence", "gaitsequence", "frame", "animtime", "framerate", "scale",
    "rendermode", "renderamt", "rendercolor", "renderfx", "health", "frags", "weapons",
    "takedamage", "deadflag", "viewOfs", "button", "impulse", "spawnflags", "flags", "colormap",
    "team", "maxHealth", "teleportTime", "armortype", "armorvalue", "waterlevel", "watertype",
    "target", "targetname", "netname", "message", "dmgTake", "dmgSave", "dmg", "dmgtime", "noise",
    "noise1", "noise2", "noise3", "speed", "airFinished", "painFinished", "radsuitFinished",
    "playerclass", "maxspeed", "fov", "weaponanim", "pushmsec", "bInDuck", "flTimeStepSound",
    "flSwimTime", "flDuckTime", "iStepLeft", "fallVelocity", "gamestate", "oldbuttons",
    "groupinfo"]

def entityPropertyType (name : String) : String :=
  if entityVectors.contains name then "number[]"
  else if entityStrings.contains name then "string"
  else "number"

/-- Entities. Their wrapper passes everything on, so the shape is written by hand. -/
def entity : RecordShape :=
  { name := "Entity", properties := entityNames.map fun n => ⟨n, entityPropertyType n⟩ }

/-- All structures as far as they are known without any wrapper source. -/
def unread : List RecordShape := sources.map (fun (_, name) => ofProperties name []) ++ [entity]

end RecordShape

end ScriptGlue
