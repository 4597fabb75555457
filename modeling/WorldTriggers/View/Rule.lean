import WorldTriggers.Content.Basic

namespace WorldTriggers

def timeView (t : Int) : Json :=
  let seconds := t.fdiv Span.second
  .array [.int seconds, .int (t - seconds * Span.second)]

def Condition.view (c : Condition) : Json := c.toJson

def Action.view (a : Action) : Json :=
  .ofFields [("type", .string a.kind), ("params", .ofMap a.params),
    ("delay", .ofOption timeView a.wait?)]

def Rule.TimerPlan.view (p : TimerPlan) : Json := .array [timeView p.initial, timeView p.interval]

def Rule.view (r : Rule) : Json :=
  .ofFields [
    ("id", .string r.id), ("event", r.event.toJson),
    ("conditions", .array (r.conditions.map Condition.view)),
    ("actions", .array (r.actions.map Action.view)),
    ("cooldown", .ofOption timeView r.cooldownSpan?), ("max_fires", .int r.maxFires),
    ("fire_limit", .ofOption .ofNat r.fireLimit?), ("enabled", .bool r.enabled),
    ("permanent", .bool r.permanent), ("command_pattern", .ofOption .string r.commandPattern),
    ("timer", .ofOption TimerPlan.view r.timerPlan?)]

def Diagnostic.view (d : Diagnostic) : Json :=
  .ofFields [
    ("file", .ofOption .string d.file), ("scope", .string d.scope.text),
    ("rule_id", .ofOption .string d.rule), ("reason", .string d.reason.message),
    ("text", .string d.text)]

def Content.view (c : Content) : Json :=
  .ofFields [
    ("scope", .string c.scope.text), ("rules", .array (c.rules.map Rule.view)),
    ("rejected", .array (c.rejected.map Diagnostic.view)), ("source", .ofOption .string c.source)]

end WorldTriggers
