import WorldTriggers.Direction
import WorldTriggers.Scope

namespace WorldTriggers

structure Transition where
  source : AreaId
  target : AreaId
  deriving DecidableEq, Repr

structure Context where
  actor : Option ActorId := none
  room : Option RoomId := none
  area : Option AreaId := none
  direction : Option Direction := none
  command : Option String := none
  transition : Option Transition := none
  deriving DecidableEq, Repr

namespace Transition

def decode (v : Json) : Decoded Transition := do
  let f ← Fields.of "a transition" ["from", "to"] v
  f.check fun
    | "from" => some fun v => discard v.asString
    | "to" => some fun v => discard v.asString
    | _ => none
  let source ← f.required "from" Json.asString
  let target ← f.required "to" Json.asString
  f.finish
  pure ⟨source, target⟩

def toJson (t : Transition) : Json :=
  .object [("from", .string t.source), ("to", .string t.target)]

end Transition

namespace Context

def actorIn (actor : ActorId) (room : RoomId) : Context := { actor := some actor, room := some room }

def decode (v : Json) : Decoded Context := do
  let f ← Fields.of "a context"
    ["actor", "room", "area", "direction", "command", "transition"] v
  f.check fun
    | "actor" | "room" | "area" | "command" => some fun v => discard (v.asOption Json.asString)
    | "direction" => some fun v => discard (v.asOption (Direction.decode false))
    | "transition" => some fun v => discard (v.asOption Transition.decode)
    | _ => none
  let actor ← f.optional "actor" Json.asString
  let room ← f.optional "room" Json.asString
  let area ← f.optional "area" Json.asString
  let direction ← f.optional "direction" (Direction.decode false)
  let command ← f.optional "command" Json.asString
  let transition ← f.optional "transition" Transition.decode
  f.finish
  pure { actor, room, area, direction, command, transition }

def toJson (c : Context) : Json :=
  .ofFields [
    ("actor", .ofOption .string c.actor), ("room", .ofOption .string c.room),
    ("area", .ofOption .string c.area), ("direction", .ofOption Direction.toJson c.direction),
    ("command", .ofOption .string c.command),
    ("transition", .ofOption Transition.toJson c.transition)]

end Context

end WorldTriggers
