import WorldTriggers.Engine.Lifecycle
import WorldTriggers.View.Rule

namespace WorldTriggers

def RuleRef.view (r : RuleRef) : Json := .array [.string r.scope.text, .string r.rule]

def Dispatch.fields (d : Dispatch) : List (String × Json) := [
  ("events", .array (d.notices.map Notice.toJson)), ("fired", .array (d.fired.map RuleRef.view)),
  ("handled", .bool d.handled), ("messages", .array (d.messages.map .string))]

def Dispatch.view (d : Dispatch) : Json := .ofFields d.fields

def LoadReport.view (r : LoadReport) : Json :=
  .ofFields [
    ("scope", .string r.scope.text), ("loaded", .ofNat r.loaded),
    ("rejected", .array (r.rejected.map fun d =>
      .array [.ofOption .string d.rule, .string d.reason.message])),
    ("unknown_conditions", .array (r.unknownConditions.map .string)),
    ("unknown_actions", .array (r.unknownActions.map .string)), ("restored", .ofNat r.restored)]

def Followup.view : Followup → Json
  | setEnabled target enabled =>
    .ofFields [("set_enabled", .bool enabled), ("scope", .string target.scope.text),
      ("rule", .string target.rule)]
  | fireRule target =>
    .ofFields [("fire", .string target.rule), ("scope", .string target.scope.text)]
  | expireEffect actor effect stat after =>
    .ofFields [("expire", .string effect), ("actor", .string actor),
      ("stat", .ofOption (fun s => .array [.string s.stat, .int s.amount]) stat),
      ("after", timeView after)]

def CooldownKey.text : CooldownKey → String
  | rule => "rule"
  | actor a => "actor:" ++ a

def Timestamp.view (t : Timestamp) : Json := .array [.int t.second, .ofNat t.nanos]

def RuleState.fields (s : RuleState) : List (String × Json) := [
  ("fires", .ofNat s.fireCount),
  ("last", .ofFields (s.lastFired.entries.map fun e => (e.1.text, e.2.view))),
  ("any", .ofOption Timestamp.view s.lastFiredAny), ("floor", .ofOption Timestamp.view s.restoredFloor),
  ("timer", .ofOption (fun h => .string (Handle.text h)) s.timer),
  ("override", .ofOption .bool s.enabledOverride)]

def RuleState.view (s : RuleState) : Json := .ofFields s.fields

def Installation.view (i : Installation) : Json :=
  .array [.ofNat i.epoch, .array (i.ruleIds.map .string)]

def Engine.scopeView (e : Engine) (scope : Scope) (i : Installation) : Json :=
  .ofFields (i.rules.filterMap fun l =>
    (e.states.get? ⟨scope, l.rule.id⟩).map fun s =>
      (l.rule.id, .ofFields (("enabled", .bool (s.isEnabled l.rule.enabled)) :: s.fields)))

def Engine.statesView (e : Engine) : Json :=
  .ofFields (e.catalog.scopes.entries.map fun (scope, i) => (scope.text, e.scopeView scope i))

end WorldTriggers
