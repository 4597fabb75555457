import WorldTriggers.World.Basic
import WorldTriggers.Yaml.Decode
import WorldTriggers.Yaml.Reader

namespace WorldTriggers

structure RoomFixture where
  id : RoomId
  name : String
  area : Option AreaId
  description : String
  exits : SortedMap Direction RoomId
  flags : SortedMap String Json
  items : Stacks
  npcs : List TemplateId

structure ActorFixture where
  id : ActorId
  name : String
  room : Option RoomId
  health : Nat
  maxHealth : Nat
  level : Nat
  inventory : Stacks
  equipped : List TemplateId
  effects : List String
  inCombat : Bool

structure WorldFixture where
  hour : Nat
  areas : List (AreaId × String)
  templates : SortedMap TemplateId String
  rooms : List RoomFixture
  actors : List ActorFixture

namespace WorldFixture

open Yaml Node

def number? : Node → Option Nat := nat? (Width.maxNat 32)

def stacks? : Node → Option Stacks := map? some number?

def direction? (s : String) : Option Direction := Direction.named.lookup s

def area? (n : Node) : Option (AreaId × String) := do
  let f ← record? ["id", "name"] n
  pure (← required? f "id" text?, ← required? f "name" text?)

def room? (n : Node) : Option RoomFixture := do
  let f ← record? ["id", "name", "area", "description", "exits", "flags", "items", "npcs"] n
  let id ← required? f "id" text?
  let name ← required? f "name" text?
  let area ← defaulted? f "area" (optional? text?) none
  let description ← defaulted? f "description" text? ""
  let exits ← defaulted? f "exits" (map? direction? text?) .empty
  let flags ← defaulted? f "flags" (map? some (toJson? (maxDepth - 4))) .empty
  let items ← defaulted? f "items" stacks? .empty
  let npcs ← defaulted? f "npcs" (list? text?) []
  pure { id, name, area, description, exits, flags, items, npcs }

def actor? (n : Node) : Option ActorFixture := do
  let f ← record? ["id", "name", "room", "health", "max_health", "level", "inventory", "equipped",
    "effects", "in_combat"] n
  let id ← required? f "id" text?
  let name ← required? f "name" text?
  let room ← defaulted? f "room" (optional? text?) none
  let health ← defaulted? f "health" number? 100
  let maxHealth ← defaulted? f "max_health" number? 100
  let level ← defaulted? f "level" number? 1
  let inventory ← defaulted? f "inventory" stacks? .empty
  let equipped ← defaulted? f "equipped" (list? text?) []
  let effects ← defaulted? f "effects" (list? text?) []
  let inCombat ← defaulted? f "in_combat" bool? false
  pure { id, name, room, health, maxHealth, level, inventory, equipped, effects, inCombat }

def ofNode? (n : Node) : Option WorldFixture := do
  let f ← record? ["hour", "areas", "templates", "rooms", "actors"] n
  let hour ← defaulted? f "hour" number? 0
  let areas ← defaulted? f "areas" (list? area?) []
  let templates ← defaulted? f "templates" (map? some text?) .empty
  let rooms ← defaulted? f "rooms" (list? room?) []
  let actors ← defaulted? f "actors" (list? actor?) []
  pure { hour, areas, templates, rooms, actors }

def ofText? (s : String) : Option WorldFixture := (Node.ofText? s).bind ofNode?

end WorldFixture

def RoomFixture.build (f : RoomFixture) : Room :=
  f.npcs.foldl Room.addNpc {
    id := f.id
    name := f.name
    area := f.area
    description := f.description
    exits := f.exits
    flags := f.flags
    items := f.items }

def ActorFixture.build (f : ActorFixture) : Actor :=
  let maxHealth := max f.maxHealth 1
  { id := f.id
    name := f.name
    room := f.room
    health := min f.health maxHealth
    maxHealth
    level := f.level
    inventory := f.inventory
    equipped := .ofList f.equipped
    effects := .ofList f.effects
    inCombat := f.inCombat }

def WorldFixture.build (f : WorldFixture) : Except WorldError World := do
  let w : World := World.setHour {} f.hour
  let w := f.areas.foldl (fun w (id, name) => w.addArea id name) w
  let w := { w with templates := f.templates }
  let w ← f.rooms.foldlM (fun w r => w.addRoom r.build) w
  w.validateExits
  f.actors.foldlM (fun w a => w.addActor a.build) w

end WorldTriggers
