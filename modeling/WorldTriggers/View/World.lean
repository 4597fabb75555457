import WorldTriggers.World.Basic

namespace WorldTriggers

def Stacks.toJson (s : Stacks) : Json := .ofFields (s.entries.map fun e => (e.1, .ofNat e.2))

def NameSet.toJson (s : NameSet) : Json := .array (s.keys.map .string)

def Room.toJson (r : Room) : Json :=
  .ofFields [
    ("name", .string r.name), ("area", .ofOption .string r.area),
    ("description", .string r.shownDescription),
    ("overridden", .bool r.descriptionOverride.isSome),
    ("exits", .ofFields (r.exits.entries.map fun e => (e.1.name, .string e.2))),
    ("flags", .ofMap r.flags), ("items", r.items.toJson), ("npcs", r.npcs.toJson)]

def Actor.toJson (a : Actor) : Json :=
  .ofFields [
    ("name", .string a.name), ("room", .ofOption .string a.room), ("health", .ofNat a.health),
    ("max_health", .ofNat a.maxHealth), ("level", .ofNat a.level),
    ("experience", .ofNat a.experience), ("inventory", a.inventory.toJson),
    ("equipped", a.equipped.toJson), ("effects", a.effects.toJson),
    ("in_combat", .bool a.inCombat)]

def World.toJson (w : World) : Json :=
  .ofFields [
    ("hour", .ofNat w.hour),
    ("rooms", .ofFields (w.rooms.entries.map fun e => (e.1, e.2.toJson))),
    ("actors", .ofFields (w.actors.entries.map fun e => (e.1, e.2.toJson)))]

end WorldTriggers
