import WorldTriggers.World.Actor
import WorldTriggers.World.Room

/-!
The world: rooms, actors, areas, templates and the hour of the day. Queries about unknown rooms and
actors have an answer that says so or counts nothing; changes to them fail.
-/

namespace WorldTriggers

structure World where
  rooms : SortedMap RoomId Room := .empty
  actors : SortedMap ActorId Actor := .empty
  areas : SortedMap AreaId String := .empty
  templates : SortedMap TemplateId String := .empty
  hour : Nat := 0

namespace World

def addRoom (w : World) (r : Room) : Except WorldError World :=
  if w.rooms.contains r.id then .error (.duplicateRoom r.id)
  else .ok { w with rooms := w.rooms.insert r.id r }

def addActor (w : World) (a : Actor) : Except WorldError World :=
  if w.actors.contains a.id then .error (.duplicateActor a.id)
  else
    match a.room.filter fun r => !w.rooms.contains r with
    | some r => .error (.roomNotFound r)
    | none => .ok { w with actors := w.actors.insert a.id a }

def addArea (w : World) (id : AreaId) (name : String) : World :=
  { w with areas := w.areas.insert id name }

def addTemplate (w : World) (id : TemplateId) (name : String) : World :=
  { w with templates := w.templates.insert id name }

def setHour (w : World) (hour : Nat) : World := { w with hour := hour % 24 }

def danglingExit? (w : World) : Option (RoomId × Direction × RoomId) :=
  w.rooms.entries.findSome? fun (_, r) =>
    r.exits.entries.findSome? fun (d, target) =>
      if w.rooms.contains target then none else some (r.id, d, target)

def validateExits (w : World) : Except WorldError Unit :=
  match w.danglingExit? with
  | some (room, d, target) => .error (.danglingExit room d target)
  | none => .ok ()

section Queries

def actorName? (w : World) (actor : ActorId) : Option String := (w.actors.get? actor).map (·.name)

def actorRoom? (w : World) (actor : ActorId) : Option RoomId := (w.actors.get? actor).bind (·.room)

def actorItemCount (w : World) (actor : ActorId) (item : TemplateId) : Nat :=
  match w.actors.get? actor with
  | some a => a.inventory.count item
  | none => 0

def actorHasEquipped (w : World) (actor : ActorId) (item : TemplateId) : Bool :=
  (w.actors.get? actor).any (·.equipped.contains item)

def actorHealth? (w : World) (actor : ActorId) : Option (Nat × Nat) :=
  (w.actors.get? actor).map fun a => (a.health, a.maxHealth)

def actorLevel? (w : World) (actor : ActorId) : Option Nat := (w.actors.get? actor).map (·.level)

def actorHasEffect (w : World) (actor : ActorId) (effect : String) : Bool :=
  (w.actors.get? actor).any (·.effects.contains effect)

def actorInCombat (w : World) (actor : ActorId) : Bool := (w.actors.get? actor).any (·.inCombat)

def roomExists (w : World) (room : RoomId) : Bool := w.rooms.contains room

def roomName? (w : World) (room : RoomId) : Option String := (w.rooms.get? room).map (·.name)

def roomArea? (w : World) (room : RoomId) : Option AreaId := (w.rooms.get? room).bind (·.area)

def areaName? (w : World) (area : AreaId) : Option String := w.areas.get? area

def roomFlag? (w : World) (room : RoomId) (flag : String) : Option Json :=
  (w.rooms.get? room).bind (·.flags.get? flag)

def exitTarget? (w : World) (room : RoomId) (d : Direction) : Option RoomId :=
  (w.rooms.get? room).bind (·.exits.get? d)

def npcCount (w : World) (room : RoomId) (template : TemplateId) : Nat :=
  match w.rooms.get? room with
  | some r => r.npcs.count template
  | none => 0

def roomItemCount (w : World) (room : RoomId) (item : TemplateId) : Nat :=
  match w.rooms.get? room with
  | some r => r.items.count item
  | none => 0

def actorsInRoom (w : World) (room : RoomId) : List ActorId :=
  (w.actors.values.filter fun a => a.room = some room).map (·.id)

def templateName? (w : World) (template : TemplateId) : Option String := w.templates.get? template

end Queries

section Changes

def findRoom (w : World) (room : RoomId) : Except WorldError Room :=
  match w.rooms.get? room with
  | some r => .ok r
  | none => .error (.roomNotFound room)

def findActor (w : World) (actor : ActorId) : Except WorldError Actor :=
  match w.actors.get? actor with
  | some a => .ok a
  | none => .error (.actorNotFound actor)

def putRoom (w : World) (room : RoomId) (r : Room) : World :=
  { w with rooms := w.rooms.insert room r }

def putActor (w : World) (actor : ActorId) (a : Actor) : World :=
  { w with actors := w.actors.insert actor a }

def requireRoom (w : World) (room : RoomId) : Except WorldError Unit :=
  if w.rooms.contains room then .ok () else .error (.roomNotFound room)

def setRoomFlag (w : World) (room : RoomId) (flag : String) (value : Json) :
    Except WorldError World := do
  let r ← w.findRoom room
  pure (w.putRoom room { r with flags := r.flags.insert flag value })

def openExit (w : World) (room : RoomId) (d : Direction) (target : RoomId) :
    Except WorldError (Bool × World) := do
  w.requireRoom target
  let r ← w.findRoom room
  let (changed, r) := r.openExit d target
  pure (changed, w.putRoom room r)

def closeExit (w : World) (room : RoomId) (d : Direction) : Except WorldError (Bool × World) := do
  let r ← w.findRoom room
  let (changed, r) := r.closeExit d
  pure (changed, w.putRoom room r)

def setDescription (w : World) (room : RoomId) (text : String) : Except WorldError World := do
  let r ← w.findRoom room
  pure (w.putRoom room { r with descriptionOverride := some text })

def resetDescription (w : World) (room : RoomId) : Except WorldError World := do
  let r ← w.findRoom room
  pure (w.putRoom room { r with descriptionOverride := none })

def addRoomItems (w : World) (room : RoomId) (item : TemplateId) (quantity : Nat) :
    Except WorldError World := do
  let r ← w.findRoom room
  pure (w.putRoom room (← r.addItems item quantity))

def removeRoomItems (w : World) (room : RoomId) (item : TemplateId) (quantity : Nat) :
    Except WorldError (Nat × World) := do
  let r ← w.findRoom room
  let (removed, r) := r.removeItems item quantity
  pure (removed, w.putRoom room r)

def spawnNpc (w : World) (room : RoomId) (template : TemplateId) : Except WorldError World := do
  let r ← w.findRoom room
  pure (w.putRoom room (r.addNpc template))

def despawnNpc (w : World) (room : RoomId) (template : TemplateId) : Except WorldError World := do
  let r ← w.findRoom room
  pure (w.putRoom room (← r.takeNpc template))

def moveNpc (w : World) (template : TemplateId) (source target : RoomId) :
    Except WorldError World := do
  w.requireRoom target
  (← w.despawnNpc source template).spawnNpc target template

def moveActor (w : World) (actor : ActorId) (room : RoomId) :
    Except WorldError (Option RoomId × World) := do
  w.requireRoom room
  let a ← w.findActor actor
  pure (a.room, w.putActor actor { a with room := some room })

def adjustHealth (w : World) (actor : ActorId) (delta : Int) : Except WorldError (Int × World) := do
  let a ← w.findActor actor
  let (change, a) := a.adjustHealth delta
  pure (change, w.putActor actor a)

def addEffect (w : World) (actor : ActorId) (effect : String) :
    Except WorldError (Bool × World) := do
  let a ← w.findActor actor
  pure (!a.effects.contains effect, w.putActor actor { a with effects := a.effects.insert effect () })

def removeEffect (w : World) (actor : ActorId) (effect : String) :
    Except WorldError (Bool × World) := do
  let a ← w.findActor actor
  pure (a.effects.contains effect, w.putActor actor { a with effects := a.effects.erase effect })

def giveItem (w : World) (actor : ActorId) (item : TemplateId) (quantity : Nat) :
    Except WorldError World := do
  let a ← w.findActor actor
  pure (w.putActor actor (← a.give item quantity))

def takeItem (w : World) (actor : ActorId) (item : TemplateId) (quantity : Nat) :
    Except WorldError World := do
  let a ← w.findActor actor
  pure (w.putActor actor (← a.take item quantity))

def addExperience (w : World) (actor : ActorId) (amount : Nat) : Except WorldError World := do
  let a ← w.findActor actor
  if a.experience + amount ≤ maxExperience then
    pure (w.putActor actor { a with experience := a.experience + amount })
  else throw .arithmeticOverflow

end Changes

end World

end WorldTriggers
