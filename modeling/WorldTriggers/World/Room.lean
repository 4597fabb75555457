import WorldTriggers.World.Error

namespace WorldTriggers

structure Room where
  id : RoomId
  name : String
  area : Option AreaId := none
  description : String := ""
  descriptionOverride : Option String := none
  exits : SortedMap Direction RoomId := .empty
  flags : SortedMap String Json := .empty
  npcs : Stacks := .empty
  items : Stacks := .empty

namespace Room

def shownDescription (r : Room) : String := r.descriptionOverride.getD r.description

def openExit (r : Room) (d : Direction) (target : RoomId) : Bool × Room :=
  if r.exits.get? d = some target then (false, r)
  else (true, { r with exits := r.exits.insert d target })

def closeExit (r : Room) (d : Direction) : Bool × Room :=
  if r.exits.contains d then (true, { r with exits := r.exits.erase d }) else (false, r)

def addNpc (r : Room) (template : TemplateId) : Room :=
  { r with npcs := r.npcs.insert template (r.npcs.count template + 1) }

def takeNpc (r : Room) (template : TemplateId) : Except WorldError Room :=
  match r.npcs.count template with
  | 0 => .error (.npcNotPresent template r.id)
  | n + 1 => .ok { r with npcs := r.npcs.put template n }

def addItems (r : Room) (item : TemplateId) (quantity : Nat) : Except WorldError Room :=
  (r.items.add item quantity).map fun items => { r with items }

def removeItems (r : Room) (item : TemplateId) (quantity : Nat) : Nat × Room :=
  match r.items.get? item with
  | none => (0, r)
  | some held =>
    let removed := min quantity held
    (removed, { r with items := r.items.put item (held - removed) })

end Room

end WorldTriggers
