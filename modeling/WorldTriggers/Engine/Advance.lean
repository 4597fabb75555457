import WorldTriggers.Engine.Dispatch

/-!
The passing of time. `advance` runs the jobs that are due, the earliest first, those included that
come up on the way.
-/

namespace WorldTriggers.Engine

def timerContext (w : World) : Scope → Context
  | .room r => { room := some r, area := w.roomArea? r }
  | .area a => { area := some a }

def expireEffect (w : World) (actor : ActorId) (effect : String) (stat : Option StatChange) :
    List Notice × World :=
  match w.removeEffect actor effect with
  | .ok (_, w) => ((stat.map fun s => Notice.statDelta actor s.stat s.reversal).toList, w)
  | .error _ => ([], w)

def runJob (e : Engine) (w : World) (h : Handle) (job : Job) (now : Instant) :
    List Notice × Engine × World :=
  match job with
  | .ruleTimer ref epoch =>
    match e.target? ref with
    | some (current, rule) =>
      if current = epoch then
        let (d, e, w) :=
          ((Run.start e w now).offer ⟨ref.scope, epoch, rule, timerContext w ref.scope⟩).finish
        (d.notices, e, w)
      else ([], e, w)
    | none => ([], e, w)
  | .continuation c =>
    let e := { e with deferred := e.deferred.erase h }
    if e.catalog.epoch? c.firing.scope = some c.firing.epoch then
      let (d, e, w) := ((Run.start e w now).resume c).finish
      (d.notices, e, w)
    else ([], e, w)
  | .expireEffect actor effect stat =>
    let (notices, w) := expireEffect w actor effect stat
    (notices, e, w)

def runNext? (e : Engine) (w : World) (now : Instant) : Option (List Notice × Engine × World) :=
  match e.schedule.popDue? now with
  | none => none
  | some (h, job, schedule) => some (runJob { e with schedule } w h job now)

def advanceFrom : (budget : Nat) → (told : List Notice) → Engine → World → Instant →
    Option (List Notice × Engine × World)
  | budget, told, e, w, now =>
    match e.runNext? w now with
    | none => some (told.reverse, e, w)
    | some (notices, e, w) =>
      match budget with
      | 0 => none
      | budget + 1 => advanceFrom budget (notices.reverseAux told) e w now

/-- Runs what is due, at most `budget` jobs. There is no result when more jobs than that are due, as
when rules without a delay between them keep scheduling each other. -/
def advance (budget : Nat) (e : Engine) (w : World) (now : Instant) :
    Option (List Notice × Engine × World) := advanceFrom budget [] e w now

end WorldTriggers.Engine
