import WorldTriggers.Proofs.Engine.Operation

/-!
What an engine does, event by event: rules fire, their actions come to a stop, what was put off wakes,
rules are switched and scopes removed. The events are read off the program, case by case, and what comes
between two of them is left to the program itself.
-/

namespace WorldTriggers

/-- A firing at its beginning, with how deep in a cascade it is and the restored time in force. -/
structure Onset where
  firing : Firing
  level : Nat
  now : Instant
  floor : Option Timestamp

def Onset.ref (o : Onset) : RuleRef := o.firing.ref

inductive Ending where
  | finished
  | calledOff
  /-- The delay of the next action leads beyond all time. -/
  | stranded
  | putOff (handle : Handle)
  deriving DecidableEq

/-- What one run does for a firing, from its beginning or from where a continuation took it up. -/
structure Stretch where
  firing : Firing
  now : Instant
  acted : List Nat

def Stretch.act (s : Stretch) (index : Nat) : Stretch := { s with acted := s.acted ++ [index] }

@[simp] theorem Stretch.firing_act (s : Stretch) (index : Nat) : (s.act index).firing = s.firing := rfl

inductive RuleEvent where
  | fired (onset : Onset)
  | woke (handle : Handle)
  | stopped (stretch : Stretch) (ending : Ending)
  | switched (ref : RuleRef) (enabled : Bool)
  | removed (scope : Scope)

def RuleEvent.onset? : RuleEvent → Option Onset
  | fired o => some o
  | _ => none

def onsets (ds : List RuleEvent) : List Onset := ds.filterMap RuleEvent.onset?

@[simp] theorem onsets_nil : onsets [] = [] := rfl

@[simp] theorem onsets_append (ds ds' : List RuleEvent) : onsets (ds ++ ds') = onsets ds ++ onsets ds' :=
  List.filterMap_append

namespace Run

def act (run : Run) (f : Firing) (a : Action) : Outcome × Run :=
  match run.engine.settings.actions.get? a.kind with
  | none => ({}, run)
  | some handler =>
    match handler a.params ⟨run.world, f.context, f.scope⟩ with
    | .error e => ({}, run.fail f a.kind e.message)
    | .ok (outcome, world) => (outcome, { run with world }.note outcome.notices)

theorem runActions_cons (cascade : Option Cascade) (f : Firing) (resumed : Bool) (index : Nat)
    (a : Action) (rest : List Action) (run : Run) :
    runActions cascade f resumed index (a :: rest) run =
      match if resumed then none else a.wait? with
      | some wait => run.defer f index wait
      | none =>
        let done := (run.act f a).1.followups.foldl (applyFollowup cascade f) (run.act f a).2
        if (run.act f a).1.cancelRest then done
        else runActions cascade f false (index + 1) rest done := by
  rw [runActions]
  cases if resumed then none else a.wait? with
  | some wait => rfl
  | none =>
    dsimp only
    split
    · rename_i hact
      simp only [act, hact]
      rfl
    · rename_i handler hact
      split <;> rename_i hok <;> simp only [act, hact, hok]
      rfl

/-- A way to fire rules, with what it does. -/
structure EventCascade where
  fire : Cascade
  ruleEvents : Firing → Run → List RuleEvent

def onset (run : Run) (f : Firing) (level : Nat) : Onset :=
  ⟨f, level, run.now, (run.engine.states.stateOf f.ref).restoredFloor⟩

def followupRuleEvents (t : Option EventCascade) (f : Firing) (run : Run) : Followup → List RuleEvent
  | .setEnabled target enabled =>
    match run.engine.setEnabled target enabled run.now with
    | .ok _ => [.switched target enabled]
    | .error _ => []
  | .fireRule target =>
    match t with
    | none => []
    | some t =>
      match run.engine.target? target with
      | some (epoch, rule) => t.ruleEvents ⟨target.scope, epoch, rule, f.context⟩ run
      | none => []
  | .expireEffect .. => []

def followupsRuleEvents (t : Option EventCascade) (f : Firing) : List Followup → Run → List RuleEvent
  | [], _ => []
  | x :: rest, run =>
    followupRuleEvents t f run x ++
      followupsRuleEvents t f rest (applyFollowup (t.map EventCascade.fire) f run x)

def actionRuleEvents (t : Option EventCascade) :
    (s : Stretch) → (resumed : Bool) → (index : Nat) → List Action → Run → List RuleEvent
  | s, _, _, [], _ => [.stopped s .finished]
  | s, resumed, index, a :: rest, run =>
    match if resumed then none else a.wait? with
    | some wait =>
      match run.now.after? wait with
      | some _ => [.stopped s (.putOff run.engine.schedule.nextHandle)]
      | none => [.stopped s .stranded]
    | none =>
      let (outcome, mid) := run.act s.firing a
      followupsRuleEvents t s.firing outcome.followups mid ++
        if outcome.cancelRest then [.stopped (s.act index) .calledOff]
        else actionRuleEvents t (s.act index) false (index + 1) rest
          (outcome.followups.foldl (applyFollowup (t.map EventCascade.fire) s.firing) mid)

def attemptRuleEventsWith (t : Option EventCascade) (level : Nat) (f : Firing) (run : Run) :
    List RuleEvent :=
  if f.mayFire run then
    .fired (run.onset f level) ::
      actionRuleEvents t ⟨f, run.now, []⟩ false 0 f.rule.actions (run.enter f)
  else []

def attemptRuleEvents : (depth level : Nat) → Firing → Run → List RuleEvent
  | 0, level => attemptRuleEventsWith none level
  | depth + 1, level =>
    attemptRuleEventsWith (some ⟨attempt depth, attemptRuleEvents depth (level + 1)⟩) level

def eventCascade? : (depth level : Nat) → Option EventCascade
  | 0, _ => none
  | depth + 1, level => some ⟨attempt depth, attemptRuleEvents depth (level + 1)⟩

theorem attemptRuleEvents_eq (depth level : Nat) :
    attemptRuleEvents depth level = attemptRuleEventsWith (eventCascade? depth level) level := by
  cases depth <;> rfl

theorem attempt_eq (depth level : Nat) :
    attempt depth = attemptWith ((eventCascade? depth level).map EventCascade.fire) := by
  cases depth <;> rfl

def attempts (depth : Nat) : List Firing → Run → Run
  | [], run => run
  | f :: rest, run => attempts depth rest (attempt depth f run)

def attemptsRuleEvents (depth level : Nat) : List Firing → Run → List RuleEvent
  | [], _ => []
  | f :: rest, run =>
    attemptRuleEvents depth level f run ++ attemptsRuleEvents depth level rest (attempt depth f run)

theorem attempts_append (depth : Nat) (fs gs : List Firing) (run : Run) :
    attempts depth (fs ++ gs) run = attempts depth gs (attempts depth fs run) := by
  induction fs generalizing run with
  | nil => rfl
  | cons f fs ih => exact ih _

def resumeRuleEvents (run : Run) (h : Handle) (c : Continuation) : List RuleEvent :=
  .woke h :: actionRuleEvents (eventCascade? run.engine.settings.maxDepth 0) ⟨c.firing, run.now, []⟩ true
    c.next (c.firing.rule.actions.drop c.next) { run with visited := c.firing.ref :: run.visited }

theorem resume_eq (run : Run) (c : Continuation) (level : Nat) : run.resume c =
    runActions ((eventCascade? run.engine.settings.maxDepth level).map EventCascade.fire) c.firing true
      c.next (c.firing.rule.actions.drop c.next) { run with visited := c.firing.ref :: run.visited } := by
  unfold resume
  dsimp only
  cases run.engine.settings.maxDepth <;> rfl

end Run

namespace Engine

def listeners (e : Engine) (scope : Scope) (event : EventKind) (context : Context) : List Firing :=
  match e.catalog.get? scope with
  | none => []
  | some i => ((i.boundTo event).filter (Run.selects event context)).map
      fun l => ⟨scope, i.epoch, l.rule, context⟩

def offered (e : Engine) : Operation → List Firing
  | .fire _ scope event context _ => e.listeners scope event context
  | .handle w o now =>
    match o with
    | .roomEntered actor room direction =>
      e.listeners (.room room) .enter { roomContext w actor room with direction }
    | .roomExited actor room direction =>
      e.listeners (.room room) .exit { roomContext w actor room with direction }
    | .areaEntered actor source target =>
      e.listeners (.area target) .areaEnter (areaContext w actor target source target)
    | .areaExited actor source target =>
      e.listeners (.area source) .areaExit (areaContext w actor source source target)
    | .commandAttempted actor room text =>
      let context := { roomContext w actor room with command := some text }
      let first := e.listeners (.room room) .command context
      let run := Run.attempts e.settings.maxDepth first (Run.start e w now)
      match context.area with
      | some area =>
        if run.fired.isEmpty then first ++ e.listeners (.area area) .command context else first
      | none => first
  | .fireRule _ ref context _ =>
    match e.target? ref with
    | some (epoch, rule) => [⟨ref.scope, epoch, rule, context⟩]
    | none => []
  | _ => []

def offeredRuleEvents (e : Engine) (w : World) (now : Instant) (fs : List Firing) : List RuleEvent :=
  Run.attemptsRuleEvents e.settings.maxDepth 0 fs (Run.start e w now)

def jobRuleEvents (e : Engine) (w : World) (h : Handle) (job : Job) (now : Instant) : List RuleEvent :=
  match job with
  | .ruleTimer ref epoch =>
    match e.target? ref with
    | some (current, rule) =>
      if current = epoch then
        e.offeredRuleEvents w now [⟨ref.scope, epoch, rule, timerContext w ref.scope⟩]
      else []
    | none => []
  | .continuation c =>
    let e := { e with deferred := e.deferred.erase h }
    if e.catalog.epoch? c.firing.scope = some c.firing.epoch then (Run.start e w now).resumeRuleEvents h c
    else []
  | .expireEffect .. => []

def nextRuleEvents (e : Engine) (w : World) (now : Instant) : List RuleEvent :=
  match e.schedule.popDue? now with
  | none => []
  | some (h, job, schedule) => jobRuleEvents { e with schedule } w h job now

def advanceRuleEvents : (budget : Nat) → Engine → World → Instant → List RuleEvent
  | budget, e, w, now =>
    match e.runNext? w now with
    | none => []
    | some (_, e', w') =>
      e.nextRuleEvents w now ++
        match budget with
        | 0 => []
        | budget + 1 => advanceRuleEvents budget e' w' now

def removal (e : Engine) (scope : Scope) : List RuleEvent :=
  if e.catalog.contains scope then [.removed scope] else []

def ruleEventsOf (e : Engine) (op : Operation) : List RuleEvent :=
  match op with
  | .load c _ => e.removal c.scope
  | .reload c _ => e.removal c.scope
  | .unload scope => e.removal scope
  | .setEnabled ref enabled now =>
    match e.setEnabled ref enabled now with
    | .ok _ => [.switched ref enabled]
    | .error _ => []
  | .fire w _ _ _ now => e.offeredRuleEvents w now (e.offered op)
  | .handle w _ now => e.offeredRuleEvents w now (e.offered op)
  | .fireRule w _ _ now => e.offeredRuleEvents w now (e.offered op)
  | .advance budget w now => advanceRuleEvents budget e w now
  | .restore _ => []

def performAll? (e : Engine) : List Operation → Option Engine
  | [] => some e
  | op :: ops => (e.performAll? ops).bind (·.perform op)

def ruleEventsSince (e : Engine) : List Operation → List RuleEvent
  | [] => []
  | op :: ops =>
    e.ruleEventsSince ops ++
      match e.performAll? ops with
      | some e' => e'.ruleEventsOf op
      | none => []

def history (settings : Settings) (ops : List Operation) : List RuleEvent :=
  (ofSettings settings).ruleEventsSince ops

theorem performAll?_ofSettings (settings : Settings) (ops : List Operation) :
    (ofSettings settings).performAll? ops = after? settings ops := by
  induction ops with
  | nil => rfl
  | cons op ops ih => rw [performAll?, ih, after?]

theorem Reaches.history_cons {settings : Settings} {ops : List Operation} {e : Engine}
    (h : Reaches settings ops e) (op : Operation) :
    history settings (op :: ops) = history settings ops ++ e.ruleEventsOf op := by
  rw [history, ruleEventsSince, performAll?_ofSettings, (reaches_iff.mp h).2]
  rfl

end Engine

end WorldTriggers
