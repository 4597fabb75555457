import WorldTriggers.Proofs.World.InPlace

namespace WorldTriggers

open InPlace

namespace ActionHandler

abbrev InPlace (α : Type) := EStateM ActionError ActionEnv α

namespace InPlace

instance : MonadLift (Except ActionError) InPlace := ⟨fun x => consult fun _ => x⟩

instance : MonadLift (Except ParamError) InPlace := ⟨fun x => consult fun _ => x.mapError .param⟩

def inWorld {α : Type} (m : EStateM WorldError World α) : InPlace α := fun env =>
  match m env.world with
  | .ok a world => .ok a { env with world }
  | .error e world => .error (.world e) { env with world }

instance : MonadLift (EStateM WorldError World) InPlace := ⟨inWorld⟩

abbrev Handler := Params → InPlace Outcome

def report (n : Notice) : InPlace Outcome := pure { notices := [n] }

section Messages

def messageActor : Handler := fun p => do
  let actor ← consult (·.actor)
  let text ← p.string "text"
  report (.message (.actor actor) ((← get).render text))

def messageRoom : Handler := fun p => do
  let room ← consult (·.room p)
  let text ← p.string "text"
  let env ← get
  report (.message (.room room env.context.actor) (env.render text))

def messageArea : Handler := fun p => do
  let area ← consult (·.area p)
  let text ← p.string "text"
  report (.message (.area area) ((← get).render text))

end Messages

section Characters

def spawnNpc : Handler := fun p => do
  let room ← consult (·.room p)
  let template ← p.string "template"
  World.InPlace.spawnNpc room template
  report (.entity .spawn .npc template room)

def despawnNpc : Handler := fun p => do
  let room ← consult (·.room p)
  let template ← p.string "template"
  World.InPlace.despawnNpc room template
  report (.entity .despawn .npc template room)

def moveNpc : Handler := fun p => do
  let source ←
    match ← p.string? "from" with
    | some r => pure r
    | none => consult (·.ownRoom)
  let target ← p.string "to"
  let template ← p.string "template"
  World.InPlace.moveNpc template source target
  pure { notices := [.entity .despawn .npc template source, .entity .spawn .npc template target] }

def npcSay : Handler := fun p => do
  let room ← consult (·.room p)
  let template ← p.string "template"
  if (← get).world.npcCount room template = 0 then throw (.world (.npcNotPresent template room))
  else
    let speaker := ((← get).world.templateName? template).getD template
    let text ← p.string "text"
    report (.message (.room room none) (speaker ++ " says, \"" ++ (← get).render text ++ "\""))

end Characters

section Places

def setFlag : Handler := fun p => do
  let room ← consult (·.room p)
  let (flag, value) ← p.flag.mapError ActionError.flag
  World.InPlace.setRoomFlag room flag value
  pure {}

def toggleFlag : Handler := fun p => do
  let room ← consult (·.room p)
  let flag ← p.string "flag"
  let isTrue :=
    match (← get).world.roomFlag? room flag with
    | some (.bool true) => true
    | _ => false
  World.InPlace.setRoomFlag room flag (.bool !isTrue)
  pure {}

def openExit : Handler := fun p => do
  let room ← consult (·.room p)
  let d ← direction p
  let target ← p.string "target"
  let _ ← World.InPlace.openExit room d target
  pure {}

def closeExit : Handler := fun p => do
  let room ← consult (·.room p)
  let d ← direction p
  let _ ← World.InPlace.closeExit room d
  pure {}

def setDescription : Handler := fun p => do
  let room ← consult (·.room p)
  let text ← p.string "text"
  World.InPlace.setDescription room ((← get).render text)
  pure {}

def resetDescription : Handler := fun p => do
  let room ← consult (·.room p)
  World.InPlace.resetDescription room
  pure {}

def spawnItem : Handler := fun p => do
  let room ← consult (·.room p)
  let item ← p.string "item"
  let quantity ← p.natural "quantity" 1
  World.InPlace.addRoomItems room item quantity
  report (.entity .spawn .item item room)

def despawnItem : Handler := fun p => do
  let room ← consult (·.room p)
  let item ← p.string "item"
  let quantity ← p.natural "quantity" 1
  let removed ← World.InPlace.removeRoomItems room item quantity
  if removed = 0 then pure {} else report (.entity .despawn .item item room)

end Places

section Actors

def teleport : Handler := fun p => do
  let actor ← consult (·.actor)
  let target ← p.string "room"
  let source ← World.InPlace.moveActor actor target
  report (.actorMoved actor source target)

def applyEffect : Handler := fun p => do
  let actor ← consult (·.actor)
  let effect ← p.string "effect"
  let stat ← effectStat p
  let duration ← effectDuration p
  let isNew ← World.InPlace.addEffect actor effect
  if isNew then
    pure {
      notices := (stat.map fun s => Notice.statDelta actor s.stat s.amount).toList
      followups := (duration.map (Followup.expireEffect actor effect stat)).toList }
  else pure {}

def removeEffect : Handler := fun p => do
  let actor ← consult (·.actor)
  let effect ← p.string "effect"
  let _ ← World.InPlace.removeEffect actor effect
  pure {}

def adjustHealth (delta : Int) : InPlace Outcome := do
  let actor ← consult (·.actor)
  let change ← World.InPlace.adjustHealth actor delta
  report (.statDelta actor "health" change)

def damage : Handler := fun p => do
  adjustHealth (-(← amount p))

def heal : Handler := fun p => do
  adjustHealth (← amount p)

def giveItem : Handler := fun p => do
  let actor ← consult (·.actor)
  let item ← p.string "item"
  let quantity ← p.natural "quantity" 1
  World.InPlace.giveItem actor item quantity
  pure {}

def takeItem : Handler := fun p => do
  let actor ← consult (·.actor)
  let item ← p.string "item"
  let quantity ← p.natural "quantity" 1
  World.InPlace.takeItem actor item quantity
  pure {}

def grantExperience : Handler := fun p => do
  let actor ← consult (·.actor)
  let n ← amount p
  World.InPlace.addExperience actor n.toNat
  report (.statDelta actor "experience" n)

end Actors

section Control

def setEnabled (enabled : Bool) : Handler := fun p => do
  let target ← consult (targetRule p)
  pure { followups := [.setEnabled target enabled] }

def fireTrigger : Handler := fun p => do
  let target ← consult (targetRule p)
  pure { followups := [.fireRule target] }

def cancel : Handler := fun _ => pure { cancelRest := true }

end Control

def entries : List (String × Handler) := [
  ("message_actor", messageActor), ("message_room", messageRoom), ("message_area", messageArea),
  ("spawn_npc", spawnNpc), ("despawn_npc", despawnNpc), ("move_npc", moveNpc),
  ("npc_say", npcSay), ("set_flag", setFlag), ("toggle_flag", toggleFlag),
  ("open_exit", openExit), ("close_exit", closeExit), ("set_description", setDescription),
  ("reset_description", resetDescription), ("teleport", teleport),
  ("apply_effect", applyEffect), ("remove_effect", removeEffect), ("damage", damage),
  ("heal", heal), ("give_item", giveItem), ("take_item", takeItem),
  ("grant_xp", grantExperience), ("spawn_item", spawnItem), ("despawn_item", despawnItem),
  ("enable_trigger", setEnabled true), ("disable_trigger", setEnabled false),
  ("fire_trigger", fireTrigger), ("cancel", cancel)]

def builtin : SortedMap String Handler := .ofList entries

end InPlace

end ActionHandler

end WorldTriggers
