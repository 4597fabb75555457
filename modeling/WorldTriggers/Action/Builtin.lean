import WorldTriggers.Action.Registry

namespace WorldTriggers.ActionHandler

def direction (p : Params) : Except ActionError Direction := do
  let s ← p.string "direction"
  match Direction.ofText? s with
  | some d => pure d
  | none => throw (.unknownDirection s)

def amount (p : Params) : Except ActionError Int := do
  let n ← p.integer "amount"
  if n < 0 then throw (.negativeAmount n) else pure n

def done (w : World) : Outcome × World := ({}, w)

def report (n : Notice) (w : World) : Outcome × World := ({ notices := [n] }, w)

section Messages

def messageActor : ActionHandler := fun p env => do
  let actor ← env.actor
  let text ← p.string "text"
  pure (report (.message (.actor actor) (env.render text)) env.world)

def messageRoom : ActionHandler := fun p env => do
  let room ← env.room p
  let text ← p.string "text"
  pure (report (.message (.room room env.context.actor) (env.render text)) env.world)

def messageArea : ActionHandler := fun p env => do
  let area ← env.area p
  let text ← p.string "text"
  pure (report (.message (.area area) (env.render text)) env.world)

end Messages

section Characters

def spawnNpc : ActionHandler := fun p env => do
  let room ← env.room p
  let template ← p.string "template"
  let w ← env.world.spawnNpc room template
  pure (report (.entity .spawn .npc template room) w)

def despawnNpc : ActionHandler := fun p env => do
  let room ← env.room p
  let template ← p.string "template"
  let w ← env.world.despawnNpc room template
  pure (report (.entity .despawn .npc template room) w)

def moveNpc : ActionHandler := fun p env => do
  let source ←
    match ← p.string? "from" with
    | some r => pure r
    | none => env.ownRoom
  let target ← p.string "to"
  let template ← p.string "template"
  let w ← env.world.moveNpc template source target
  pure ({ notices := [
    .entity .despawn .npc template source, .entity .spawn .npc template target] }, w)

def npcSay : ActionHandler := fun p env => do
  let room ← env.room p
  let template ← p.string "template"
  if env.world.npcCount room template = 0 then throw (.world (.npcNotPresent template room))
  else
    let speaker := (env.world.templateName? template).getD template
    let text ← p.string "text"
    pure (report
      (.message (.room room none) (speaker ++ " says, \"" ++ env.render text ++ "\"")) env.world)

end Characters

section Places

def setFlag : ActionHandler := fun p env => do
  let room ← env.room p
  let (flag, value) ← p.flag.mapError ActionError.flag
  pure (done (← env.world.setRoomFlag room flag value))

def toggleFlag : ActionHandler := fun p env => do
  let room ← env.room p
  let flag ← p.string "flag"
  let isTrue :=
    match env.world.roomFlag? room flag with
    | some (.bool true) => true
    | _ => false
  pure (done (← env.world.setRoomFlag room flag (.bool !isTrue)))

def openExit : ActionHandler := fun p env => do
  let room ← env.room p
  let d ← direction p
  let target ← p.string "target"
  let (_, w) ← env.world.openExit room d target
  pure (done w)

def closeExit : ActionHandler := fun p env => do
  let room ← env.room p
  let d ← direction p
  let (_, w) ← env.world.closeExit room d
  pure (done w)

def setDescription : ActionHandler := fun p env => do
  let room ← env.room p
  let text ← p.string "text"
  pure (done (← env.world.setDescription room (env.render text)))

def resetDescription : ActionHandler := fun p env => do
  let room ← env.room p
  pure (done (← env.world.resetDescription room))

def spawnItem : ActionHandler := fun p env => do
  let room ← env.room p
  let item ← p.string "item"
  let quantity ← p.natural "quantity" 1
  let w ← env.world.addRoomItems room item quantity
  pure (report (.entity .spawn .item item room) w)

def despawnItem : ActionHandler := fun p env => do
  let room ← env.room p
  let item ← p.string "item"
  let quantity ← p.natural "quantity" 1
  let (removed, w) ← env.world.removeRoomItems room item quantity
  if removed = 0 then pure (done w) else pure (report (.entity .despawn .item item room) w)

end Places

section Actors

def teleport : ActionHandler := fun p env => do
  let actor ← env.actor
  let target ← p.string "room"
  let (source, w) ← env.world.moveActor actor target
  pure (report (.actorMoved actor source target) w)

def effectStat (p : Params) : Except ActionError (Option StatChange) := do
  let stat ← p.string? "stat"
  let amount ← p.integer? "amount"
  match stat, amount with
  | some stat, some amount => pure (some ⟨stat, amount⟩)
  | some _, none => throw (.param (.missing "amount"))
  | none, _ => pure none

def effectDuration (p : Params) : Except ActionError (Option Span) := do
  match ← p.number? "duration" with
  | none => pure none
  | some x =>
    if x ≤ 0 then pure none
    else
      match Span.ofSeconds? x with
      | some d => pure (some d)
      | none => throw (.endlessDuration x)

def applyEffect : ActionHandler := fun p env => do
  let actor ← env.actor
  let effect ← p.string "effect"
  let stat ← effectStat p
  let duration ← effectDuration p
  let (isNew, w) ← env.world.addEffect actor effect
  if isNew then
    pure ({
      notices := (stat.map fun s => Notice.statDelta actor s.stat s.amount).toList
      followups := (duration.map (Followup.expireEffect actor effect stat)).toList }, w)
  else pure (done w)

def removeEffect : ActionHandler := fun p env => do
  let actor ← env.actor
  let effect ← p.string "effect"
  let (_, w) ← env.world.removeEffect actor effect
  pure (done w)

def adjustHealth (env : ActionEnv) (delta : Int) : Except ActionError (Outcome × World) := do
  let actor ← env.actor
  let (change, w) ← env.world.adjustHealth actor delta
  pure (report (.statDelta actor "health" change) w)

def damage : ActionHandler := fun p env => do
  adjustHealth env (-(← amount p))

def heal : ActionHandler := fun p env => do
  adjustHealth env (← amount p)

def giveItem : ActionHandler := fun p env => do
  let actor ← env.actor
  let item ← p.string "item"
  let quantity ← p.natural "quantity" 1
  pure (done (← env.world.giveItem actor item quantity))

def takeItem : ActionHandler := fun p env => do
  let actor ← env.actor
  let item ← p.string "item"
  let quantity ← p.natural "quantity" 1
  pure (done (← env.world.takeItem actor item quantity))

def grantExperience : ActionHandler := fun p env => do
  let actor ← env.actor
  let n ← amount p
  let w ← env.world.addExperience actor n.toNat
  pure (report (.statDelta actor "experience" n) w)

end Actors

section Control

def targetRule (p : Params) (env : ActionEnv) : Except ActionError RuleRef := do
  let scope ← env.targetScope p
  pure ⟨scope, ← p.string "trigger"⟩

def setEnabled (enabled : Bool) : ActionHandler := fun p env => do
  let target ← targetRule p env
  pure ({ followups := [.setEnabled target enabled] }, env.world)

def fireTrigger : ActionHandler := fun p env => do
  let target ← targetRule p env
  pure ({ followups := [.fireRule target] }, env.world)

def cancel : ActionHandler := fun _ env => .ok ({ cancelRest := true }, env.world)

end Control

end WorldTriggers.ActionHandler

namespace WorldTriggers

open ActionHandler in
def ActionRegistry.builtin : ActionRegistry :=
  ⟨SortedMap.ofList [
    ("message_actor", messageActor), ("message_room", messageRoom), ("message_area", messageArea),
    ("spawn_npc", spawnNpc), ("despawn_npc", despawnNpc), ("move_npc", moveNpc),
    ("npc_say", npcSay), ("set_flag", setFlag), ("toggle_flag", toggleFlag),
    ("open_exit", openExit), ("close_exit", closeExit), ("set_description", setDescription),
    ("reset_description", resetDescription), ("teleport", teleport),
    ("apply_effect", applyEffect), ("remove_effect", removeEffect), ("damage", damage),
    ("heal", heal), ("give_item", giveItem), ("take_item", takeItem),
    ("grant_xp", grantExperience), ("spawn_item", spawnItem), ("despawn_item", despawnItem),
    ("enable_trigger", setEnabled true), ("disable_trigger", setEnabled false),
    ("fire_trigger", fireTrigger), ("cancel", cancel)]⟩

end WorldTriggers
