import WorldTriggers.World.Error

namespace WorldTriggers

structure Actor where
  id : ActorId
  name : String
  room : Option RoomId := none
  health : Nat := 100
  maxHealth : Nat := 100
  level : Nat := 1
  experience : Nat := 0
  inventory : Stacks := .empty
  equipped : NameSet := .empty
  effects : NameSet := .empty
  inCombat : Bool := false

namespace Actor

def adjustHealth (a : Actor) (delta : Int) : Int × Actor :=
  let target := max 0 (min (a.health + delta) a.maxHealth)
  (target - a.health, { a with health := target.toNat })

def give (a : Actor) (item : TemplateId) (quantity : Nat) : Except WorldError Actor :=
  (a.inventory.add item quantity).map fun inventory => { a with inventory }

def take (a : Actor) (item : TemplateId) (quantity : Nat) : Except WorldError Actor :=
  let held := a.inventory.count item
  if held < quantity then .error (.notEnoughItems a.id item held quantity)
  else if held = quantity then
    .ok { a with inventory := a.inventory.erase item, equipped := a.equipped.erase item }
  else .ok { a with inventory := a.inventory.insert item (held - quantity) }

end Actor

end WorldTriggers
