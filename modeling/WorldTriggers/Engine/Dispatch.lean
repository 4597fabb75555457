import WorldTriggers.Engine.Control

/-!
Firing rules. All rules that fire because of one event, cascades included, belong to one run: no rule
fires twice in a run, and rules fire one another only so deep. A rule that is disabled, cooling down,
exhausted or held back by its conditions is passed over; an action that fails is reported and the next
one follows.
-/

namespace WorldTriggers

structure Run where
  engine : Engine
  world : World
  now : Instant
  visited : List RuleRef := []
  notices : List Notice := []
  fired : List RuleRef := []

structure Dispatch where
  notices : List Notice
  fired : List RuleRef

namespace Dispatch

def handled (d : Dispatch) : Bool := !d.fired.isEmpty

def didFire (d : Dispatch) (rule : RuleId) : Bool := d.fired.any (·.rule == rule)

def messages (d : Dispatch) : List String := d.notices.filterMap Notice.text?

end Dispatch

namespace Run

def start (engine : Engine) (world : World) (now : Instant) : Run := { engine, world, now }

def note (run : Run) (notices : List Notice) : Run := { run with notices := run.notices ++ notices }

def finish (run : Run) : Dispatch × Engine × World :=
  (⟨run.notices, run.fired⟩, run.engine, run.world)

end Run

namespace Firing

def cooldownKey (f : Firing) : CooldownKey :=
  match f.context.actor with
  | some a => if f.rule.event.isActorScoped then .actor a else .rule
  | none => .rule

def isAllowed (f : Firing) (state : RuleState) (now : Instant) : Bool :=
  state.isEnabled f.rule.enabled &&
  !(f.rule.cooldownSpan?.any fun c => state.isCoolingDown f.cooldownKey c now) &&
  !state.isExhausted f.rule.fireLimit?

def conditionEnv (f : Firing) (run : Run) : ConditionEnv :=
  { world := run.world
    context := f.context
    rule := f.rule.id
    now := run.now
    lastFired := (run.engine.states.stateOf f.ref).lastFiredAny
    roll := run.engine.settings.roll }

def conditionsHold (f : Firing) (run : Run) : Bool :=
  run.engine.settings.conditions.allHold (f.conditionEnv run) f.rule.conditions

def mayFire (f : Firing) (run : Run) : Bool :=
  !run.visited.contains f.ref && f.isAllowed (run.engine.states.stateOf f.ref) run.now &&
    f.conditionsHold run

end Firing

namespace Engine

def scheduleContinuation (e : Engine) (c : Continuation) (due : Instant) : Engine :=
  let (handle, schedule) := e.schedule.once due (.continuation c)
  { e with schedule, deferred := e.deferred.insert handle c.firing.ref }

def scheduleExpiry (e : Engine) (actor : ActorId) (effect : String) (stat : Option StatChange)
    (due : Instant) : Engine :=
  { e with schedule := (e.schedule.once due (.expireEffect actor effect stat)).2 }

def recordFiring (e : Engine) (f : Firing) (now : Instant) : Engine :=
  let e := { e with states := e.states.update f.ref (·.recordFiring f.cooldownKey now) }
  if f.rule.event = .timer && (e.states.stateOf f.ref).isExhausted f.rule.fireLimit? then
    e.disarmTimer f.ref
  else e

end Engine

namespace Run

abbrev Cascade := Firing → Run → Run

def fail (run : Run) (f : Firing) (action reason : String) : Run :=
  run.note [.actionFailed f.rule.id action reason]

def applyFollowup (cascade : Option Cascade) (f : Firing) (run : Run) : Followup → Run
  | .setEnabled target enabled =>
    match run.engine.setEnabled target enabled run.now with
    | .ok (notice, engine) => { run with engine }.note [notice]
    | .error e => run.fail f (if enabled then "enable_trigger" else "disable_trigger") e.message
  | .fireRule target =>
    match cascade with
    | none => run
    | some fire =>
      match run.engine.target? target with
      | some (epoch, rule) => fire ⟨target.scope, epoch, rule, f.context⟩ run
      | none => run.fail f "fire_trigger" (EngineError.ruleNotFound target).message
  | .expireEffect actor effect stat after =>
    match run.now.after? after with
    | some due => { run with engine := run.engine.scheduleExpiry actor effect stat due }
    | none => run

def defer (run : Run) (f : Firing) (index : Nat) (wait : Span) : Run :=
  match run.now.after? wait with
  | some due => { run with engine := run.engine.scheduleContinuation ⟨f, index⟩ due }
  | none => run

/-- Runs the actions of a firing, the first of which has the given index. An action with a delay puts
itself and all that follow off; `resumed` says that the first one has waited already. -/
def runActions (cascade : Option Cascade) (f : Firing) :
    (resumed : Bool) → (index : Nat) → List Action → Run → Run
  | _, _, [], run => run
  | resumed, index, a :: rest, run =>
    match if resumed then none else a.wait? with
    | some wait => run.defer f index wait
    | none =>
      match run.engine.settings.actions.get? a.kind with
      | none => runActions cascade f false (index + 1) rest run
      | some act =>
        match act a.params ⟨run.world, f.context, f.scope⟩ with
        | .error e => runActions cascade f false (index + 1) rest (run.fail f a.kind e.message)
        | .ok (outcome, world) =>
          let run := outcome.followups.foldl (applyFollowup cascade f)
            ({ run with world }.note outcome.notices)
          if outcome.cancelRest then run else runActions cascade f false (index + 1) rest run

def attemptWith (cascade : Option Cascade) (f : Firing) (run : Run) : Run :=
  if f.mayFire run then
    runActions cascade f false 0 f.rule.actions {
      run with
      engine := run.engine.recordFiring f run.now
      visited := f.ref :: run.visited
      fired := run.fired ++ [f.ref] }
  else run

def attempt : (depth : Nat) → Firing → Run → Run
  | 0 => attemptWith none
  | depth + 1 => attemptWith (some (attempt depth))

def offer (run : Run) (f : Firing) : Run := attempt run.engine.settings.maxDepth f run

/-- Picks up a firing where it was put off. The rule itself counts as fired in this run. -/
def resume (run : Run) (c : Continuation) : Run :=
  let cascade : Option Cascade :=
    match run.engine.settings.maxDepth with
    | 0 => none
    | depth + 1 => some (attempt depth)
  runActions cascade c.firing true c.next (c.firing.rule.actions.drop c.next)
    { run with visited := c.firing.ref :: run.visited }

def selects (event : EventKind) (context : Context) (l : LoadedRule) : Bool :=
  event != .command || context.command.any l.matchesCommand

def fireIn (run : Run) (scope : Scope) (event : EventKind) (context : Context) : Run :=
  match run.engine.catalog.get? scope with
  | none => run
  | some i =>
    ((i.boundTo event).filter (selects event context)).foldl
      (fun run l => run.offer ⟨scope, i.epoch, l.rule, context⟩) run

end Run

namespace Engine

def fire (e : Engine) (w : World) (scope : Scope) (event : EventKind) (context : Context)
    (now : Instant) : Dispatch × Engine × World :=
  ((Run.start e w now).fireIn scope event context).finish

def fireRule (e : Engine) (w : World) (ref : RuleRef) (context : Context) (now : Instant) :
    Except EngineError (Dispatch × Engine × World) := do
  let (epoch, rule) ← e.target ref
  pure ((Run.start e w now).offer ⟨ref.scope, epoch, rule, context⟩).finish

def roomContext (w : World) (actor : ActorId) (room : RoomId) : Context :=
  { Context.actorIn actor room with area := w.roomArea? room }

def areaContext (w : World) (actor : ActorId) (area source target : AreaId) : Context :=
  { actor := some actor
    room := w.actorRoom? actor
    area := some area
    transition := some ⟨source, target⟩ }

/-- Takes an occurrence to the rules that it concerns. A command goes to the area of its room only if
no rule of the room fired. -/
def handle (e : Engine) (w : World) (o : Occurrence) (now : Instant) :
    Dispatch × Engine × World :=
  let run := Run.start e w now
  match o with
  | .roomEntered actor room direction =>
    (run.fireIn (.room room) .enter { roomContext w actor room with direction }).finish
  | .roomExited actor room direction =>
    (run.fireIn (.room room) .exit { roomContext w actor room with direction }).finish
  | .areaEntered actor source target =>
    (run.fireIn (.area target) .areaEnter (areaContext w actor target source target)).finish
  | .areaExited actor source target =>
    (run.fireIn (.area source) .areaExit (areaContext w actor source source target)).finish
  | .commandAttempted actor room text =>
    let context := { roomContext w actor room with command := some text }
    let run := run.fireIn (.room room) .command context
    match context.area with
    | some area =>
      if run.fired.isEmpty then (run.fireIn (.area area) .command context).finish else run.finish
    | none => run.finish

end Engine

end WorldTriggers
