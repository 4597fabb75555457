import WorldTriggers.Direction
import WorldTriggers.Scope

/-!
Events on both sides of the rules: occurrences are what the simulation reports, notices are what rules
did. Both have a JSON form tagged by the kind of event.
-/

namespace WorldTriggers

inductive Occurrence where
  | roomEntered (actor : ActorId) (room : RoomId) (direction : Option Direction)
  | roomExited (actor : ActorId) (room : RoomId) (direction : Option Direction)
  | areaEntered (actor : ActorId) (source target : AreaId)
  | areaExited (actor : ActorId) (source target : AreaId)
  | commandAttempted (actor : ActorId) (room : RoomId) (text : String)
  deriving DecidableEq, Repr

inductive Audience where
  | actor (actor : ActorId)
  | room (room : RoomId) (exclude : Option ActorId)
  | area (area : AreaId)
  deriving DecidableEq, Repr

inductive EntityChange where
  | spawn
  | despawn
  deriving DecidableEq, Repr

inductive EntityKind where
  | npc
  | item
  deriving DecidableEq, Repr

inductive Notice where
  | message (target : Audience) (text : String)
  | statDelta (actor : ActorId) (stat : String) (delta : Int)
  | entity (change : EntityChange) (kind : EntityKind) (template : TemplateId) (location : RoomId)
  | actorMoved (actor : ActorId) (source : Option RoomId) (target : RoomId)
  | controlChanged (scope : Scope) (rule : RuleId) (enabled : Bool)
  | actionFailed (rule : RuleId) (action : String) (reason : String)
  deriving DecidableEq, Repr

def Fields.ofVariant (name : String) (fields : List String) (v : Json)
    (reader : String → Option (Json → Decoded Unit)) : Decoded Fields := do
  let f ← Fields.of name fields v
  f.check reader
  pure f

namespace Occurrence

inductive Tag where
  | roomEntered
  | roomExited
  | areaEntered
  | areaExited
  | commandAttempted

def tags : List (String × Tag) := [
  ("room_entered", .roomEntered), ("room_exited", .roomExited), ("area_entered", .areaEntered),
  ("area_exited", .areaExited), ("command_attempted", .commandAttempted)]

def decodeMove (name : String) (v : Json) : Decoded (ActorId × RoomId × Option Direction) := do
  let f ← Fields.ofVariant name ["actor", "room", "direction"] v fun
    | "actor" | "room" => some fun v => discard v.asString
    | "direction" => some fun v => discard (v.asOption (Direction.decode true))
    | _ => none
  let actor ← f.required "actor" Json.asString
  let room ← f.required "room" Json.asString
  let direction ← f.optional "direction" (Direction.decode true)
  f.finish
  pure (actor, room, direction)

def decodeTexts (name a b c : String) (v : Json) : Decoded (String × String × String) := do
  let f ← Fields.ofVariant name [a, b, c] v fun k =>
    if k = a || k = b || k = c then some fun v => discard v.asString else none
  let x ← f.required a Json.asString
  let y ← f.required b Json.asString
  let z ← f.required c Json.asString
  f.finish
  pure (x, y, z)

def decode (v : Json) : Decoded Occurrence := do
  let (tag, rest) ← Json.untag "kind" "an occurrence" v
  match ← Json.asVariant false tags (.string (← tag.asString)) with
  | .roomEntered =>
    let (actor, room, direction) ← decodeMove "room_entered" rest
    pure (.roomEntered actor room direction)
  | .roomExited =>
    let (actor, room, direction) ← decodeMove "room_exited" rest
    pure (.roomExited actor room direction)
  | .areaEntered =>
    let (actor, source, target) ← decodeTexts "area_entered" "actor" "from" "to" rest
    pure (.areaEntered actor source target)
  | .areaExited =>
    let (actor, source, target) ← decodeTexts "area_exited" "actor" "from" "to" rest
    pure (.areaExited actor source target)
  | .commandAttempted =>
    let (actor, room, text) ← decodeTexts "command_attempted" "actor" "room" "text" rest
    pure (.commandAttempted actor room text)

def toJson : Occurrence → Json
  | roomEntered actor room direction =>
    .ofFields [("kind", .string "room_entered"), ("actor", .string actor), ("room", .string room),
      ("direction", .ofOption Direction.toJson direction)]
  | roomExited actor room direction =>
    .ofFields [("kind", .string "room_exited"), ("actor", .string actor), ("room", .string room),
      ("direction", .ofOption Direction.toJson direction)]
  | areaEntered actor source target =>
    .ofFields [("kind", .string "area_entered"), ("actor", .string actor),
      ("from", .string source), ("to", .string target)]
  | areaExited actor source target =>
    .ofFields [("kind", .string "area_exited"), ("actor", .string actor),
      ("from", .string source), ("to", .string target)]
  | commandAttempted actor room text =>
    .ofFields [("kind", .string "command_attempted"), ("actor", .string actor),
      ("room", .string room), ("text", .string text)]

end Occurrence

namespace Audience

inductive Tag where
  | actor
  | room
  | area

def tags : List (String × Tag) := [("actor", .actor), ("room", .room), ("area", .area)]

def decodeTag : Json → Decoded Tag
  | .int n =>
    match (if 0 ≤ n then (tags.map (·.2))[n.toNat]? else none) with
    | some t => .ok t
    | none => .error (.tooLarge n "variant index 0 <= i < 3")
  | v => do Json.asVariant false tags (.string (← v.asString))

def decodeText (name field : String) (v : Json) : Decoded String := do
  let f ← Fields.ofVariant name [field] v fun k =>
    if k = field then some fun v => discard v.asString else none
  let x ← f.required field Json.asString
  f.finish
  pure x

def decode (v : Json) : Decoded Audience := do
  let (tag, rest) ← Json.untag "type" "an audience" v
  match ← decodeTag tag with
  | .actor => pure (.actor (← decodeText "actor" "actor" rest))
  | .area => pure (.area (← decodeText "area" "area" rest))
  | .room =>
    let f ← Fields.ofVariant "room" ["room", "exclude"] rest fun
      | "room" => some fun v => discard v.asString
      | "exclude" => some fun v => discard (v.asOption Json.asString)
      | _ => none
    let room ← f.required "room" Json.asString
    let exclude ← f.optional "exclude" Json.asString
    f.finish
    pure (.room room exclude)

def toJson : Audience → Json
  | actor a => .ofFields [("type", .string "actor"), ("actor", .string a)]
  | room r exclude =>
    .ofFields [("type", .string "room"), ("room", .string r),
      ("exclude", .ofOption .string exclude)]
  | area a => .ofFields [("type", .string "area"), ("area", .string a)]

end Audience

namespace EntityChange

def name : EntityChange → String
  | spawn => "spawn"
  | despawn => "despawn"

def decode (v : Json) : Decoded EntityChange :=
  Json.asVariant true ([spawn, despawn].map fun c => (c.name, c)) v

end EntityChange

namespace EntityKind

def name : EntityKind → String
  | npc => "npc"
  | item => "item"

def decode (v : Json) : Decoded EntityKind :=
  Json.asVariant true ([npc, item].map fun k => (k.name, k)) v

end EntityKind

namespace Notice

inductive Tag where
  | message
  | statDelta
  | entity
  | actorMoved
  | controlChanged
  | actionFailed

def tags : List (String × Tag) := [
  ("message", .message), ("stat_delta", .statDelta), ("entity", .entity),
  ("actor_moved", .actorMoved), ("control_changed", .controlChanged),
  ("action_failed", .actionFailed)]

def decodeMessage (v : Json) : Decoded Notice := do
  let f ← Fields.ofVariant "message" ["target", "text"] v fun
    | "target" => some fun v => discard (Audience.decode v)
    | "text" => some fun v => discard v.asString
    | _ => none
  let target ← f.required "target" Audience.decode
  let text ← f.required "text" Json.asString
  f.finish
  pure (.message target text)

def decodeStatDelta (v : Json) : Decoded Notice := do
  let f ← Fields.ofVariant "stat_delta" ["actor", "stat", "delta"] v fun
    | "actor" | "stat" => some fun v => discard v.asString
    | "delta" => some fun v => discard v.asInt64
    | _ => none
  let actor ← f.required "actor" Json.asString
  let stat ← f.required "stat" Json.asString
  let delta ← f.required "delta" Json.asInt64
  f.finish
  pure (.statDelta actor stat delta)

def decodeEntity (v : Json) : Decoded Notice := do
  let f ← Fields.ofVariant "entity" ["action", "kind", "template", "location"] v fun
    | "action" => some fun v => discard (EntityChange.decode v)
    | "kind" => some fun v => discard (EntityKind.decode v)
    | "template" | "location" => some fun v => discard v.asString
    | _ => none
  let change ← f.required "action" EntityChange.decode
  let kind ← f.required "kind" EntityKind.decode
  let template ← f.required "template" Json.asString
  let location ← f.required "location" Json.asString
  f.finish
  pure (.entity change kind template location)

def decodeActorMoved (v : Json) : Decoded Notice := do
  let f ← Fields.ofVariant "actor_moved" ["actor", "from", "to"] v fun
    | "actor" | "to" => some fun v => discard v.asString
    | "from" => some fun v => discard (v.asOption Json.asString)
    | _ => none
  let actor ← f.required "actor" Json.asString
  let source ← f.optional "from" Json.asString
  let target ← f.required "to" Json.asString
  f.finish
  pure (.actorMoved actor source target)

def decodeControlChanged (v : Json) : Decoded Notice := do
  let f ← Fields.ofVariant "control_changed" ["scope", "rule_id", "enabled"] v fun
    | "scope" => some fun v => discard (Scope.decode v)
    | "rule_id" => some fun v => discard v.asString
    | "enabled" => some fun v => discard v.asBool
    | _ => none
  let scope ← f.required "scope" Scope.decode
  let rule ← f.required "rule_id" Json.asString
  let enabled ← f.required "enabled" Json.asBool
  f.finish
  pure (.controlChanged scope rule enabled)

def decode (v : Json) : Decoded Notice := do
  let (tag, rest) ← Json.untag "event" "a notice" v
  match ← Json.asVariant false tags (.string (← tag.asString)) with
  | .message => decodeMessage rest
  | .statDelta => decodeStatDelta rest
  | .entity => decodeEntity rest
  | .actorMoved => decodeActorMoved rest
  | .controlChanged => decodeControlChanged rest
  | .actionFailed =>
    let (rule, action, reason) ←
      Occurrence.decodeTexts "action_failed" "rule_id" "action" "reason" rest
    pure (.actionFailed rule action reason)

def toJson : Notice → Json
  | message target text =>
    .ofFields [("event", .string "message"), ("target", target.toJson), ("text", .string text)]
  | statDelta actor stat delta =>
    .ofFields [("event", .string "stat_delta"), ("actor", .string actor), ("stat", .string stat),
      ("delta", .int delta)]
  | entity change kind template location =>
    .ofFields [("event", .string "entity"), ("action", .string change.name),
      ("kind", .string kind.name), ("template", .string template),
      ("location", .string location)]
  | actorMoved actor source target =>
    .ofFields [("event", .string "actor_moved"), ("actor", .string actor),
      ("from", .ofOption .string source), ("to", .string target)]
  | controlChanged scope rule enabled =>
    .ofFields [("event", .string "control_changed"), ("scope", scope.toJson),
      ("rule_id", .string rule), ("enabled", .bool enabled)]
  | actionFailed rule action reason =>
    .ofFields [("event", .string "action_failed"), ("rule_id", .string rule),
      ("action", .string action), ("reason", .string reason)]

def text? : Notice → Option String
  | message _ text => some text
  | _ => none

end Notice

end WorldTriggers
