import WorldTriggers.Condition.Comparison
import WorldTriggers.Condition.Registry

namespace WorldTriggers

def Params.direction (p : Params) : Except ConditionError Direction := do
  let s ← p.string "direction"
  match Direction.ofText? s with
  | some d => pure d
  | none => throw (.unknownDirection s)

/-- A flag with a value: either the parameters `flag` and `value`, which is true when left out, or a
single parameter named for the flag. The parameter `room` does not count. -/
def Params.flag (p : Params) : Except ConditionError (String × Json) := do
  match ← p.string? "flag" with
  | some flag => pure (flag, (p.get? "value").getD (.bool true))
  | none =>
    match p.entries.filter fun e => e.1 != "room" with
    | [e] => pure e
    | _ => throw .flagForm

/-- Whether a flag has a value. A flag that is not set is false and null; numbers are the same when
they are equal as floating point numbers. -/
def flagMatches (actual : Option Json) (expected : Json) : Bool :=
  match actual with
  | none =>
    match expected with
    | .bool false => true
    | .null => true
    | _ => false
  | some v =>
    match v.number? with
    | some a =>
      match expected.number? with
      | some b => Comparison.eq.holds a b
      | none => false
    | none => v.same expected

namespace ConditionHandler

abbrev Test := Params → ConditionEnv → Except ConditionError Bool

def hasItem : Test := fun p env => do
  let actor ← env.actor
  let item ← p.string "item"
  let quantity ← p.natural "quantity" 1
  pure (quantity ≤ env.world.actorItemCount actor item)

def hasEquipped : Test := fun p env => do
  let actor ← env.actor
  let item ← p.string "item"
  pure (env.world.actorHasEquipped actor item)

def healthPercent : Test := fun p env => do
  let actor ← env.actor
  let (op, value) ← Comparison.ofParams p
  match env.world.actorHealth? actor with
  | some (health, largest) =>
    pure (op.holds (Float.ofNat health * 100 / Float.ofNat (max largest 1)) value)
  | none => throw (.unknownActor actor)

def level : Test := fun p env => do
  let actor ← env.actor
  let (op, value) ← Comparison.ofParams p
  match env.world.actorLevel? actor with
  | some level => pure (op.holds (Float.ofNat level) value)
  | none => throw (.unknownActor actor)

def hasEffect : Test := fun p env => do
  let actor ← env.actor
  pure (env.world.actorHasEffect actor (← p.string "effect"))

def inCombat : Test := fun _ env => do
  pure (env.world.actorInCombat (← env.actor))

def flagSet : Test := fun p env => do
  let room ← env.room p
  let (flag, expected) ← p.flag
  pure (flagMatches (env.world.roomFlag? room flag) expected)

def exitOpen : Test := fun p env => do
  let room ← env.room p
  let d ← p.direction
  pure (env.world.exitTarget? room d).isSome

def entityPresent : Test := fun p env => do
  let room ← env.room p
  let template ← p.string "template"
  let quantity ← p.natural "quantity" 1
  pure (quantity ≤ env.world.npcCount room template)

def itemPresent : Test := fun p env => do
  let room ← env.room p
  let item ← p.string "item"
  let quantity ← p.natural "quantity" 1
  pure (quantity ≤ env.world.roomItemCount room item)

def playerCount : Test := fun p env => do
  let room ← env.room p
  let (op, value) ← Comparison.ofParams p
  pure (op.holds (Float.ofNat (env.world.actorsInRoom room).length) value)

/-- Whether an hour lies in the window from `first` up to, but without, `last`. A window that ends
before it starts goes through midnight; one without extent is the whole day. -/
def inWindow (first last hour : Nat) : Bool :=
  if first < last then first ≤ hour && hour < last
  else if last < first then first ≤ hour || hour < last
  else true

def timeOfDay : Test := fun p env => do
  let first ← p.natural "from" 0
  let last ← p.natural "to" 24
  if first > 24 || last > 24 then throw .hoursOutOfRange
  else pure (inWindow first last env.world.hour)

def elapsedSeconds (now : Instant) : Option Timestamp → Float
  | none => 1 / 0
  | some t => if 0 ≤ t.elapsed now then (t.elapsed now).toSeconds else 0

def secondsSinceFired : Test := fun p env => do
  let (op, value) ← Comparison.ofParams p
  pure (op.holds (elapsedSeconds env.now env.lastFired) value)

def randomChance : Test := fun p env => do
  let percent ← p.number "percent"
  if percent ≤ 0 then pure false
  else if 100 ≤ percent then pure true
  else pure (decide (env.roll.draw env.world env.context env.rule env.now p < percent))

end ConditionHandler

open ConditionHandler in
def ConditionRegistry.builtin : ConditionRegistry :=
  ⟨SortedMap.ofList [
    ("has_item", .test hasItem), ("has_equipped", .test hasEquipped),
    ("health_percent", .test healthPercent), ("level", .test level),
    ("has_effect", .test hasEffect), ("in_combat", .test inCombat), ("flag_set", .test flagSet),
    ("exit_open", .test exitOpen), ("entity_present", .test entityPresent),
    ("item_present", .test itemPresent), ("player_count", .test playerCount),
    ("time_of_day", .test timeOfDay), ("seconds_since_fired", .test secondsSinceFired),
    ("all", .combine .all), ("any", .combine .any), ("not", .combine .not),
    ("random_chance", .test randomChance)]⟩

end WorldTriggers
