import WorldTriggers.Proofs.Engine.OperationSteps

namespace WorldTriggers

inductive WorldEvent where
  | called (op : Operation)
  | acted (f : Firing) (a : Action) (run : Run)
  | ended (actor : ActorId) (effect : String) (stat : Option StatChange) (now : Instant) (world : World)

def Operation.world? : Operation → Option World
  | fire w _ _ _ _ => some w
  | handle w _ _ => some w
  | fireRule w _ _ _ => some w
  | advance _ w _ => some w
  | load .. => none
  | reload .. => none
  | unload _ => none
  | setEnabled .. => none
  | restore _ => none

def WorldEvent.world? : WorldEvent → Option World
  | called op => op.world?
  | acted f a run => some (run.act f a).2.world
  | ended actor effect stat _ w => some (Engine.expireEffect w actor effect stat).2

def WorldEvent.worldAfter (w : World) (ms : List WorldEvent) : World :=
  ms.foldl (fun w m => m.world?.getD w) w

namespace Run

structure WorldEventCascade where
  fire : Cascade
  worldEvents : Firing → Run → List WorldEvent

def followupWorldEvents (r : Option WorldEventCascade) (f : Firing) (run : Run) : Followup → List WorldEvent
  | .fireRule target =>
    match r with
    | none => []
    | some r =>
      match run.engine.target? target with
      | some (epoch, rule) => r.worldEvents ⟨target.scope, epoch, rule, f.context⟩ run
      | none => []
  | .setEnabled .. => []
  | .expireEffect .. => []

def followupsWorldEvents (r : Option WorldEventCascade) (f : Firing) : List Followup → Run → List WorldEvent
  | [], _ => []
  | x :: rest, run =>
    followupWorldEvents r f run x ++
      followupsWorldEvents r f rest (applyFollowup (r.map WorldEventCascade.fire) f run x)

def actionWorldEvents (r : Option WorldEventCascade) (f : Firing) :
    (resumed : Bool) → List Action → Run → List WorldEvent
  | _, [], _ => []
  | resumed, a :: rest, run =>
    match if resumed then none else a.wait? with
    | some _ => []
    | none =>
      let (outcome, mid) := run.act f a
      .acted f a run :: (followupsWorldEvents r f outcome.followups mid ++
        if outcome.cancelRest then []
        else actionWorldEvents r f false rest
          (outcome.followups.foldl (applyFollowup (r.map WorldEventCascade.fire) f) mid))

def attemptWorldEventsWith (r : Option WorldEventCascade) (f : Firing) (run : Run) : List WorldEvent :=
  if f.mayFire run then actionWorldEvents r f false f.rule.actions (run.enter f) else []

def attemptWorldEvents : (depth : Nat) → Firing → Run → List WorldEvent
  | 0 => attemptWorldEventsWith none
  | depth + 1 => attemptWorldEventsWith (some ⟨attempt depth, attemptWorldEvents depth⟩)

def worldEventCascade? : (depth : Nat) → Option WorldEventCascade
  | 0 => none
  | depth + 1 => some ⟨attempt depth, attemptWorldEvents depth⟩

def attemptsWorldEvents (depth : Nat) : List Firing → Run → List WorldEvent
  | [], _ => []
  | f :: rest, run => attemptWorldEvents depth f run ++ attemptsWorldEvents depth rest (attempt depth f run)

def resumeWorldEvents (run : Run) (c : Continuation) : List WorldEvent :=
  actionWorldEvents (worldEventCascade? run.engine.settings.maxDepth) c.firing true
    (c.firing.rule.actions.drop c.next) { run with visited := c.firing.ref :: run.visited }

end Run

namespace Engine

def offeredWorldEvents (e : Engine) (w : World) (now : Instant) (fs : List Firing) : List WorldEvent :=
  Run.attemptsWorldEvents e.settings.maxDepth fs (Run.start e w now)

def jobWorldEvents (e : Engine) (w : World) (h : Handle) (job : Job) (now : Instant) : List WorldEvent :=
  match job with
  | .ruleTimer ref epoch =>
    match e.target? ref with
    | some (current, rule) =>
      if current = epoch then
        e.offeredWorldEvents w now [⟨ref.scope, epoch, rule, timerContext w ref.scope⟩]
      else []
    | none => []
  | .continuation c =>
    let e := { e with deferred := e.deferred.erase h }
    if e.catalog.epoch? c.firing.scope = some c.firing.epoch then (Run.start e w now).resumeWorldEvents c
    else []
  | .expireEffect actor effect stat => [.ended actor effect stat now w]

def nextWorldEvents (e : Engine) (w : World) (now : Instant) : List WorldEvent :=
  match e.schedule.popDue? now with
  | none => []
  | some (h, job, schedule) => jobWorldEvents { e with schedule } w h job now

def advanceWorldEvents : (budget : Nat) → Engine → World → Instant → List WorldEvent
  | budget, e, w, now =>
    match e.runNext? w now with
    | none => []
    | some (_, e', w') =>
      e.nextWorldEvents w now ++
        match budget with
        | 0 => []
        | budget + 1 => advanceWorldEvents budget e' w' now

def worldEventsOf (e : Engine) (op : Operation) : List WorldEvent :=
  match op with
  | .fire w _ _ _ now => e.offeredWorldEvents w now (e.offered op)
  | .handle w _ now => e.offeredWorldEvents w now (e.offered op)
  | .fireRule w _ _ now => e.offeredWorldEvents w now (e.offered op)
  | .advance budget w now => advanceWorldEvents budget e w now
  | _ => []

/-- The events of operations, the latest of which comes first; it need not return. -/
def worldHistory (settings : Settings) : List Operation → List WorldEvent
  | [] => []
  | op :: ops =>
    worldHistory settings ops ++
      match after? settings ops with
      | some e => .called op :: e.worldEventsOf op
      | none => []

def leaves? (e : Engine) : Operation → Option World
  | .fire w scope event context now => some (e.fire w scope event context now).2.2
  | .handle w o now => some (e.handle w o now).2.2
  | .fireRule w ref context now =>
    match e.fireRule w ref context now with
    | .ok (_, _, w') => some w'
    | .error _ => some w
  | .advance budget w now => (e.advance budget w now).map (·.2.2)
  | _ => none

end Engine

end WorldTriggers
