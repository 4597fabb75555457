import WorldTriggers.EventKind
import WorldTriggers.Identifier
import WorldTriggers.Params
import WorldTriggers.Time.Basic

namespace WorldTriggers

structure Condition where
  kind : String
  params : Params
  negate : Bool

structure Action where
  kind : String
  params : Params
  delay : Float

structure Rule where
  id : RuleId
  event : EventKind
  conditions : List Condition
  actions : List Action
  cooldown : Float
  maxFires : Int
  enabled : Bool
  permanent : Bool
  commandPattern : Option String
  timerInterval : Option Float
  timerInitialDelay : Float

namespace Condition

def decode (v : Json) : Decoded Condition := do
  let f ← Fields.of "struct TriggerCondition" ["type", "params", "negate"] v
  f.check fun
    | "type" => some fun v => discard v.asString
    | "params" => some fun v => discard v.asMap
    | "negate" => some fun v => discard v.asBool
    | _ => none
  let kind ← f.required "type" Json.asString
  let params ← f.defaulted "params" Json.asMap .empty
  let negate ← f.defaulted "negate" Json.asBool false
  f.finish
  pure ⟨kind, params, negate⟩

def toJson (c : Condition) : Json :=
  .ofFields [("type", .string c.kind), ("params", .ofMap c.params), ("negate", .bool c.negate)]

end Condition

namespace Action

def decode (v : Json) : Decoded Action := do
  let f ← Fields.of "struct TriggerAction" ["type", "params", "delay"] v
  f.check fun
    | "type" => some fun v => discard v.asString
    | "params" => some fun v => discard v.asMap
    | "delay" => some fun v => discard v.asFloat
    | _ => none
  let kind ← f.required "type" Json.asString
  let params ← f.defaulted "params" Json.asMap .empty
  let delay ← f.defaulted "delay" Json.asFloat 0
  f.finish
  pure ⟨kind, params, delay⟩

def wait? (a : Action) : Option Span := Span.ofPositiveSeconds? a.delay

def toJson (a : Action) : Json :=
  .ofFields [("type", .string a.kind), ("params", .ofMap a.params), ("delay", .ofFloat a.delay)]

end Action

namespace Rule

def fieldNames : List String :=
  ["id", "event", "conditions", "actions", "cooldown", "max_fires", "enabled", "permanent",
    "command_pattern", "timer_interval", "timer_initial_delay"]

def decode (v : Json) : Decoded Rule := do
  let f ← Fields.of "struct TriggerDefinition" fieldNames v
  f.check fun
    | "id" => some fun v => discard v.asString
    | "event" => some fun v => discard (EventKind.decode v)
    | "conditions" => some fun v => discard (v.asList Condition.decode)
    | "actions" => some fun v => discard (v.asList Action.decode)
    | "cooldown" => some fun v => discard v.asFloat
    | "max_fires" => some fun v => discard v.asInt64
    | "enabled" => some fun v => discard v.asBool
    | "permanent" => some fun v => discard v.asBool
    | "command_pattern" => some fun v => discard (v.asOption Json.asString)
    | "timer_interval" => some fun v => discard (v.asOption Json.asFloat)
    | "timer_initial_delay" => some fun v => discard v.asFloat
    | _ => none
  let id ← f.required "id" Json.asString
  let event ← f.required "event" EventKind.decode
  let conditions ← f.defaulted "conditions" (Json.asList Condition.decode) []
  let actions ← f.defaulted "actions" (Json.asList Action.decode) []
  let cooldown ← f.defaulted "cooldown" Json.asFloat 0
  let maxFires ← f.defaulted "max_fires" Json.asInt64 (-1)
  let enabled ← f.defaulted "enabled" Json.asBool true
  let permanent ← f.defaulted "permanent" Json.asBool false
  let commandPattern ← f.defaulted "command_pattern" (Json.asOption Json.asString) none
  let timerInterval ← f.defaulted "timer_interval" (Json.asOption Json.asFloat) none
  let timerInitialDelay ← f.defaulted "timer_initial_delay" Json.asFloat 0
  f.finish
  pure {
    id, event, conditions, actions, cooldown, maxFires, enabled, permanent, commandPattern,
    timerInterval, timerInitialDelay }

def toJson (r : Rule) : Json :=
  .ofFields (
    [("id", .string r.id), ("event", r.event.toJson),
      ("conditions", .array (r.conditions.map Condition.toJson)),
      ("actions", .array (r.actions.map Action.toJson)), ("cooldown", .ofFloat r.cooldown),
      ("max_fires", .int r.maxFires), ("enabled", .bool r.enabled),
      ("permanent", .bool r.permanent), ("timer_initial_delay", .ofFloat r.timerInitialDelay)] ++
    (r.commandPattern.map fun p => ("command_pattern", Json.string p)).toList ++
    (r.timerInterval.map fun x => ("timer_interval", Json.ofFloat x)).toList)

def cooldownSpan? (r : Rule) : Option Span := Span.ofPositiveSeconds? r.cooldown

def fireLimit? (r : Rule) : Option Nat :=
  if r.maxFires < 0 then none else some (min r.maxFires.toNat (Width.maxNat 32))

structure TimerPlan where
  initial : Span
  interval : Span
  deriving DecidableEq, Repr

def timerPlan? (r : Rule) : Option TimerPlan := do
  if r.event ≠ .timer then none
  else
    let interval ← Span.ofPositiveSeconds? (← r.timerInterval)
    let delay := if 0 < r.timerInitialDelay then r.timerInitialDelay else 0
    let initial ← Span.ofSeconds? delay
    some ⟨initial, interval⟩

end Rule

end WorldTriggers
