import WorldTriggers.Engine.Basic

namespace WorldTriggers.Engine

def armTimer (e : Engine) (scope : Scope) (epoch : Nat) (r : Rule) (now : Instant) : Engine :=
  match r.timerPlan? with
  | none => e
  | some plan =>
    let ref : RuleRef := ⟨scope, r.id⟩
    let e := { e with states := e.states.update ref id }
    let state := e.states.stateOf ref
    if state.timer.any e.schedule.isPending || !state.isEnabled r.enabled ||
        state.isExhausted r.fireLimit? then e
    else
      match now.after? plan.initial with
      | none => e
      | some due =>
        let (handle, schedule) := e.schedule.every due plan.interval (.ruleTimer ref epoch)
        { e with
          schedule
          states := e.states.update ref fun s => { s with timer := some handle } }

def disarmTimer (e : Engine) (ref : RuleRef) : Engine :=
  let schedule :=
    match (e.states.stateOf ref).timer with
    | some h => e.schedule.cancel h
    | none => e.schedule
  { e with schedule, states := e.states.update ref fun s => { s with timer := none } }

def cancelDeferred (e : Engine) (p : RuleRef → Bool) : Engine :=
  { e with
    schedule := e.schedule.cancelWhere fun h => (e.deferred.get? h).any p
    deferred := e.deferred.filter fun _ ref => !p ref }

def setEnabled (e : Engine) (ref : RuleRef) (enabled : Bool) (now : Instant) :
    Except EngineError (Notice × Engine) := do
  let (epoch, r) ← e.target ref
  let e := {
    e with states := e.states.update ref fun s => { s with enabledOverride := some enabled } }
  let e :=
    if r.event = .timer then
      if enabled then e.armTimer ref.scope epoch r now else e.disarmTimer ref
    else e
  let e := if enabled then e else e.cancelDeferred (· == ref)
  pure (.controlChanged ref.scope ref.rule enabled, e)

end WorldTriggers.Engine
