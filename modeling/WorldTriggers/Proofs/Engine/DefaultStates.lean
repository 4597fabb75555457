import WorldTriggers.Proofs.Engine.Alike

namespace WorldTriggers

variable {now : Instant}

namespace Run

def Alike (run run' : Run) : Prop := ∃ engine, run.engine.Alike engine ∧ run' = { run with engine }

variable {run run' : Run}

namespace Alike

theorem of_engine {e d : Engine} (h : e.Alike d) (w : World) (now : Instant) :
    Alike (start e w now) (start d w now) := ⟨d, h, rfl⟩

theorem engine (h : Alike run run') : run.engine.Alike run'.engine := by
  obtain ⟨_, h, rfl⟩ := h
  exact h

theorem finish (h : Alike run run') : Engine.Agree run.finish run'.finish := by
  obtain ⟨_, h, rfl⟩ := h
  exact ⟨rfl, h, rfl⟩

theorem note (h : Alike run run') (notices : List Notice) :
    Alike (run.note notices) (run'.note notices) := by
  obtain ⟨engine, h, rfl⟩ := h
  exact ⟨engine, h, rfl⟩

theorem fail (h : Alike run run') (f : Firing) (action reason : String) :
    Alike (run.fail f action reason) (run'.fail f action reason) := h.note _

theorem mayFire (h : Alike run run') (f : Firing) : f.mayFire run' = f.mayFire run := by
  obtain ⟨engine, h, rfl⟩ := h
  unfold Firing.mayFire Firing.conditionsHold Firing.conditionEnv
  dsimp only
  rw [h.stateOf, h.settings]

def Kept (cascade : Option Cascade) : Prop :=
  ∀ fire, cascade = some fire → ∀ f run run', Alike run run' → Alike (fire f run) (fire f run')

variable {cascade : Option Cascade}

theorem applyFollowup (hc : Kept cascade) (h : Alike run run') (f : Firing) (x : Followup) :
    Alike (applyFollowup cascade f run x) (applyFollowup cascade f run' x) := by
  obtain ⟨engine, h, rfl⟩ := h
  cases x with
  | setEnabled target enabled =>
    unfold Run.applyFollowup
    dsimp only
    rcases h.setEnabled target enabled run.now with ⟨err, he, hd⟩ | ⟨notice, e', d', he, hd, h'⟩
    · rw [he, hd]
      exact fail ⟨engine, h, rfl⟩ ..
    · rw [he, hd]
      have hrun : Alike { run with engine := e' } { run with engine := d' } := ⟨d', h', rfl⟩
      exact hrun.note _
  | fireRule target =>
    unfold Run.applyFollowup
    cases cascade with
    | none => exact ⟨engine, h, rfl⟩
    | some fire =>
      dsimp only
      rw [h.target?]
      split
      · exact hc fire rfl _ _ _ ⟨engine, h, rfl⟩
      · exact fail ⟨engine, h, rfl⟩ ..
  | expireEffect actor effect stat after =>
    unfold Run.applyFollowup
    dsimp only
    split
    · exact ⟨_, h.scheduleExpiry .., rfl⟩
    · exact ⟨engine, h, rfl⟩

theorem followups (hc : Kept cascade) (h : Alike run run') (f : Firing) (left : List Followup) :
    Alike (left.foldl (Run.applyFollowup cascade f) run)
      (left.foldl (Run.applyFollowup cascade f) run') := by
  induction left generalizing run run' with
  | nil => exact h
  | cons x rest ih => exact ih (applyFollowup hc h f x)

theorem runActions (hc : Kept cascade) (f : Firing) (resumed : Bool) (index : Nat)
    (actions : List Action) (h : Alike run run') :
    Alike (runActions cascade f resumed index actions run)
      (runActions cascade f resumed index actions run') := by
  induction actions generalizing resumed index run run' with
  | nil => exact h
  | cons a rest ih =>
    obtain ⟨engine, h, rfl⟩ := h
    have hrun : Alike run { run with engine } := ⟨engine, h, rfl⟩
    unfold Run.runActions
    split
    · unfold defer
      dsimp only
      split
      · exact ⟨_, h.scheduleContinuation .., rfl⟩
      · exact hrun
    · dsimp only
      rw [h.settings]
      split
      · exact ih _ _ hrun
      · split
        · exact ih _ _ (hrun.fail ..)
        · rename_i outcome world hok
          have hdone : Alike (outcome.followups.foldl (Run.applyFollowup cascade f)
              ({ run with world }.note outcome.notices))
              (outcome.followups.foldl (Run.applyFollowup cascade f)
                ({ run with engine, world }.note outcome.notices)) := by
            have hworld : Alike { run with world } { run with engine, world } := ⟨engine, h, rfl⟩
            exact followups hc (hworld.note _) ..
          split
          · exact hdone
          · exact ih _ _ hdone

theorem attemptWith (hc : Kept cascade) (h : Alike run run') (f : Firing) :
    Alike (attemptWith cascade f run) (attemptWith cascade f run') := by
  unfold Run.attemptWith
  rw [h.mayFire]
  split
  · obtain ⟨engine, h, rfl⟩ := h
    exact runActions hc f false 0 _ ⟨_, h.recordFiring f run.now, rfl⟩
  · exact h

theorem kept_none : Kept none := by
  intro fire h
  cases h

theorem attempt (depth : Nat) (h : Alike run run') (f : Firing) :
    Alike (attempt depth f run) (attempt depth f run') := by
  induction depth generalizing f run run' with
  | zero => exact attemptWith kept_none h f
  | succ depth ih =>
    refine attemptWith ?_ h f
    rintro _ ⟨⟩ f run run' h
    exact ih h f

theorem offer (h : Alike run run') (f : Firing) : Alike (run.offer f) (run'.offer f) := by
  unfold Run.offer
  rw [h.engine.settings]
  exact h.attempt _ f

theorem resume (h : Alike run run') (c : Continuation) : Alike (run.resume c) (run'.resume c) := by
  obtain ⟨engine, h, rfl⟩ := h
  unfold Run.resume
  dsimp only
  rw [h.settings]
  refine runActions ?_ c.firing true c.next _ ⟨engine, h, rfl⟩
  split
  · exact kept_none
  · rintro _ ⟨⟩ f run run' h
    exact h.attempt _ f

theorem fireIn (h : Alike run run') (scope : Scope) (event : EventKind) (context : Context) :
    Alike (run.fireIn scope event context) (run'.fireIn scope event context) := by
  have hfold (i : Installation) (ls : List LoadedRule) (run run' : Run) (h : Alike run run') :
      Alike (ls.foldl (fun run l => run.offer ⟨scope, i.epoch, l.rule, context⟩) run)
        (ls.foldl (fun run l => run.offer ⟨scope, i.epoch, l.rule, context⟩) run') := by
    induction ls generalizing run run' with
    | nil => exact h
    | cons l rest ih => exact ih _ _ (h.offer _)
  unfold Run.fireIn
  rw [h.engine.catalog]
  split
  · exact h
  · exact hfold _ _ run run' h

end Alike

end Run

namespace Engine

open Run (start)

variable {e d : Engine} {w : World}

namespace Alike

theorem fire (h : Alike e d) (w : World) (scope : Scope) (event : EventKind) (context : Context)
    (now : Instant) : Agree (e.fire w scope event context now) (d.fire w scope event context now) :=
  ((Run.Alike.of_engine h w now).fireIn scope event context).finish

theorem fireRule (h : Alike e d) (w : World) (ref : RuleRef) (context : Context) (now : Instant) :
    (∃ err, e.fireRule w ref context now = .error err ∧ d.fireRule w ref context now = .error err) ∨
      ∃ x y, e.fireRule w ref context now = .ok x ∧ d.fireRule w ref context now = .ok y ∧
        Agree x y := by
  unfold Engine.fireRule
  rw [h.target]
  cases e.target ref with
  | error err => exact .inl ⟨err, rfl, rfl⟩
  | ok t =>
    obtain ⟨epoch, rule⟩ := t
    exact .inr ⟨_, _, rfl, rfl, ((Run.Alike.of_engine h w now).offer _).finish⟩

theorem handle (h : Alike e d) (w : World) (o : Occurrence) (now : Instant) :
    Agree (e.handle w o now) (d.handle w o now) := by
  have hstart := Run.Alike.of_engine h w now
  cases o with
  | roomEntered actor room direction => exact (hstart.fireIn ..).finish
  | roomExited actor room direction => exact (hstart.fireIn ..).finish
  | areaEntered actor source target => exact (hstart.fireIn ..).finish
  | areaExited actor source target => exact (hstart.fireIn ..).finish
  | commandAttempted actor room text =>
    have hroom := hstart.fireIn (.room room) .command
      { roomContext w actor room with command := some text }
    -- Whether the area is asked rests on what fired in the room.
    have hfired : ((start d w now).fireIn (.room room) .command
        { roomContext w actor room with command := some text }).fired =
        ((start e w now).fireIn (.room room) .command
          { roomContext w actor room with command := some text }).fired := by
      obtain ⟨_, -, hd⟩ := hroom
      rw [hd]
    unfold Engine.handle
    dsimp only
    split
    · rw [hfired]
      split
      · exact (hroom.fireIn ..).finish
      · exact hroom.finish
    · exact hroom.finish

theorem runJob (h : Alike e d) (w : World) (k : Handle) (job : Job) (now : Instant) :
    Agree (e.runJob w k job now) (d.runJob w k job now) := by
  cases job with
  | ruleTimer ref epoch =>
    unfold Engine.runJob
    dsimp only
    rw [h.target?]
    split
    · rename_i current rule ht
      split
      · have hdone := ((Run.Alike.of_engine h w now).offer
          ⟨ref.scope, epoch, rule, timerContext w ref.scope⟩).finish
        exact ⟨congrArg Dispatch.notices hdone.first, hdone.engine, hdone.last⟩
      · exact ⟨rfl, h, rfl⟩
    · exact ⟨rfl, h, rfl⟩
  | continuation c =>
    obtain ⟨states, hs, rfl⟩ := h
    have herased : Alike { e with deferred := e.deferred.erase k }
        { e with states, deferred := e.deferred.erase k } := ⟨states, hs, rfl⟩
    unfold Engine.runJob
    dsimp only
    split
    · have hdone := ((Run.Alike.of_engine herased w now).resume c).finish
      exact ⟨congrArg Dispatch.notices hdone.first, hdone.engine, hdone.last⟩
    · exact ⟨rfl, herased, rfl⟩
  | expireEffect actor effect stat => exact ⟨rfl, h, rfl⟩

theorem runNext? (h : Alike e d) (w : World) (now : Instant) :
    (e.runNext? w now = none ∧ d.runNext? w now = none) ∨
      ∃ x y, e.runNext? w now = some x ∧ d.runNext? w now = some y ∧ Agree x y := by
  obtain ⟨states, hs, rfl⟩ := h
  unfold Engine.runNext?
  dsimp only
  split
  · exact .inl ⟨rfl, rfl⟩
  · rename_i k job schedule hpop
    exact .inr ⟨_, _, rfl, rfl, runJob (e := { e with schedule }) ⟨states, hs, rfl⟩ w k job now⟩

theorem advanceFrom (h : Alike e d) (budget : Nat) (told : List Notice) (w : World) (now : Instant) :
    (advanceFrom budget told e w now = none ∧ advanceFrom budget told d w now = none) ∨
      ∃ x y, advanceFrom budget told e w now = some x ∧ advanceFrom budget told d w now = some y ∧
        Agree x y := by
  induction budget generalizing told e d w with
  | zero =>
    unfold Engine.advanceFrom
    rcases h.runNext? w now with ⟨he, hd⟩ | ⟨x, y, he, hd, -⟩ <;> rw [he, hd]
    · exact .inr ⟨_, _, rfl, rfl, rfl, h, rfl⟩
    · exact .inl ⟨rfl, rfl⟩
  | succ budget ih =>
    unfold Engine.advanceFrom
    rcases h.runNext? w now with ⟨he, hd⟩ | ⟨⟨notices, e', w'⟩, ⟨_, d', _⟩, he, hd, hagree⟩ <;>
      rw [he, hd]
    · exact .inr ⟨_, _, rfl, rfl, rfl, h, rfl⟩
    · obtain ⟨hnotices, h', hworld⟩ := hagree
      cases hnotices
      cases hworld
      exact ih h' _ w'

theorem advance (h : Alike e d) (budget : Nat) (w : World) (now : Instant) :
    (e.advance budget w now = none ∧ d.advance budget w now = none) ∨
      ∃ x y, e.advance budget w now = some x ∧ d.advance budget w now = some y ∧ Agree x y :=
  h.advanceFrom budget [] w now

end Alike

end Engine

section Calls

inductive Call where
  | perform (op : Operation)
  | isEnabled (ref : RuleRef)
  | exported
  | nextDeadline
  | pendingJobs

/-- What comes back, the world that is left included, but not how many states a load restored. -/
inductive Answer where
  | loaded (report : LoadReport)
  | unloaded (was : Bool)
  | switched (result : Except EngineError Notice)
  | dispatched (result : Except EngineError (Dispatch × World))
  | advanced (result : Option (List Notice × World))
  | restored (applied : Nat)
  | enabled (flag : Option Bool)
  | exported (records : List Record)
  | deadline (time : Option Instant)
  | pending (jobs : Nat)

namespace Engine

variable {e d : Engine}

def answer (e : Engine) : Call → Answer
  | .perform (.load c now) => .loaded { (e.load c now).1 with restored := 0 }
  | .perform (.reload c now) => .loaded { (e.reload c now).1 with restored := 0 }
  | .perform (.unload scope) => .unloaded (e.unload scope).1
  | .perform (.setEnabled ref enabled now) => .switched ((e.setEnabled ref enabled now).map (·.1))
  | .perform (.fire w scope event context now) =>
    let (d, _, w) := e.fire w scope event context now
    .dispatched (.ok (d, w))
  | .perform (.handle w o now) =>
    let (d, _, w) := e.handle w o now
    .dispatched (.ok (d, w))
  | .perform (.fireRule w ref context now) =>
    .dispatched ((e.fireRule w ref context now).map fun (d, _, w) => (d, w))
  | .perform (.advance budget w now) =>
    .advanced ((e.advance budget w now).map fun (notices, _, w) => (notices, w))
  | .perform (.restore records) => .restored (e.restore records).1
  | .isEnabled ref => .enabled (e.isEnabled? ref)
  | .exported => .exported e.exported
  | .nextDeadline => .deadline e.nextDeadline?
  | .pendingJobs => .pending e.pendingJobs

def next? (e : Engine) : Call → Option Engine
  | .perform op => e.perform op
  | _ => some e

def answers : Engine → List Call → List Answer
  | _, [] => []
  | e, q :: rest =>
    e.answer q :: match e.next? q with
      | some e => e.answers rest
      | none => []

namespace Alike

theorem perform (h : Alike e d) (op : Operation) :
    d.answer (.perform op) = e.answer (.perform op) ∧
      (e.perform op = none ∧ d.perform op = none ∨
        ∃ e' d', e.perform op = some e' ∧ d.perform op = some d' ∧ Alike e' d') := by
  cases op with
  | load c now =>
    obtain ⟨hreport, hload⟩ := h.load c now
    exact ⟨congrArg Answer.loaded hreport, .inr ⟨_, _, rfl, rfl, hload⟩⟩
  | reload c now =>
    obtain ⟨hreport, hload⟩ := h.reload c now
    exact ⟨congrArg Answer.loaded hreport, .inr ⟨_, _, rfl, rfl, hload⟩⟩
  | unload scope =>
    obtain ⟨hwas, hunload⟩ := h.unload scope
    exact ⟨congrArg Answer.unloaded hwas, .inr ⟨_, _, rfl, rfl, hunload⟩⟩
  | setEnabled ref enabled now =>
    unfold answer Engine.perform
    dsimp only
    rcases h.setEnabled ref enabled now with ⟨err, he, hd⟩ | ⟨notice, e', d', he, hd, h'⟩ <;>
      rw [he, hd]
    · exact ⟨rfl, .inr ⟨e, d, rfl, rfl, h⟩⟩
    · exact ⟨rfl, .inr ⟨e', d', rfl, rfl, h'⟩⟩
  | fire w scope event context now =>
    obtain ⟨hfirst, h', hlast⟩ := h.fire w scope event context now
    refine ⟨?_, .inr ⟨_, _, rfl, rfl, h'⟩⟩
    simp only [answer, hfirst, hlast]
  | handle w o now =>
    obtain ⟨hfirst, h', hlast⟩ := h.handle w o now
    refine ⟨?_, .inr ⟨_, _, rfl, rfl, h'⟩⟩
    simp only [answer, hfirst, hlast]
  | fireRule w ref context now =>
    unfold answer Engine.perform
    dsimp only
    rcases h.fireRule w ref context now with
      ⟨err, he, hd⟩ | ⟨⟨_, e', _⟩, ⟨_, d', _⟩, he, hd, hfirst, h', hlast⟩ <;> rw [he, hd]
    · exact ⟨rfl, .inr ⟨e, d, rfl, rfl, h⟩⟩
    · cases hfirst
      cases hlast
      exact ⟨rfl, .inr ⟨e', d', rfl, rfl, h'⟩⟩
  | advance budget w now =>
    unfold answer Engine.perform
    dsimp only
    rcases h.advance budget w now with
      ⟨he, hd⟩ | ⟨⟨_, e', _⟩, ⟨_, d', _⟩, he, hd, hfirst, h', hlast⟩ <;> rw [he, hd]
    · exact ⟨rfl, .inl ⟨rfl, rfl⟩⟩
    · cases hfirst
      cases hlast
      exact ⟨rfl, .inr ⟨e', d', rfl, rfl, h'⟩⟩
  | restore records =>
    obtain ⟨hcount, hrestore⟩ := h.restore records
    exact ⟨congrArg Answer.restored hcount, .inr ⟨_, _, rfl, rfl, hrestore⟩⟩

theorem call (h : Alike e d) (q : Call) :
    d.answer q = e.answer q ∧ (e.next? q = none ∧ d.next? q = none ∨
      ∃ e' d', e.next? q = some e' ∧ d.next? q = some d' ∧ Alike e' d') := by
  have hrest : ∃ e' d', some e = some e' ∧ some d = some d' ∧ Alike e' d' := ⟨e, d, rfl, rfl, h⟩
  cases q with
  | perform op => exact h.perform op
  | isEnabled ref => exact ⟨congrArg Answer.enabled (h.isEnabled? ref), .inr hrest⟩
  | exported => exact ⟨congrArg Answer.exported h.exported, .inr hrest⟩
  | nextDeadline =>
    exact ⟨congrArg (fun s => Answer.deadline (Schedule.nextDeadline? s)) h.schedule, .inr hrest⟩
  | pendingJobs => exact ⟨congrArg (fun s => Answer.pending (Schedule.size s)) h.schedule, .inr hrest⟩

theorem answers (h : Alike e d) (calls : List Call) : d.answers calls = e.answers calls := by
  induction calls generalizing e d with
  | nil => rfl
  | cons q rest ih =>
    unfold Engine.answers
    obtain ⟨hanswer, ⟨he, hd⟩ | ⟨e', d', he, hd, h'⟩⟩ := h.call q <;> rw [hanswer, he, hd]
    exact congrArg _ (ih h')

end Alike

end Engine

end Calls

namespace Firing

/-- The gate of a firing, with a case of its own for a rule that has no state. It tells when the rule
fired last, if it lets the firing through. -/
def gate (f : Firing) (state : Option RuleState) (now : Instant) : Option (Option Timestamp) :=
  match state with
  | some s => if f.isAllowed s now then some s.lastFiredAny else none
  | none => if f.rule.enabled && f.rule.fireLimit? != some 0 then some none else none

theorem isAllowed_default (f : Firing) (now : Instant) :
    f.isAllowed {} now = (f.rule.enabled && f.rule.fireLimit? != some 0) := by
  have hcooling : (f.rule.cooldownSpan?.any fun c =>
      RuleState.isCoolingDown {} f.cooldownKey c now) = false := by
    cases f.rule.cooldownSpan? <;> rfl
  have hexhausted : RuleState.isExhausted {} f.rule.fireLimit? = (f.rule.fireLimit? == some 0) := by
    cases hlimit : f.rule.fireLimit? with
    | none => rfl
    | some n => cases n <;> rfl
  unfold isAllowed
  rw [hcooling, hexhausted, Bool.not_false, Bool.and_true]
  rfl

theorem gate_default (f : Firing) (now : Instant) : f.gate (some {}) now = f.gate none now := by
  unfold gate
  dsimp only
  rw [isAllowed_default]

theorem gate_stateOf (f : Firing) (states : RuleStates) (now : Instant) :
    f.gate (states.get? f.ref) now = f.gate (some (states.stateOf f.ref)) now := by
  unfold RuleStates.stateOf
  cases states.get? f.ref with
  | none => exact (f.gate_default now).symm
  | some s => rfl

theorem mayFire_eq_gate (f : Firing) (run : Run) :
    f.mayFire run = (!run.visited.contains f.ref &&
      (f.gate (run.engine.states.get? f.ref) run.now).any fun lastFired =>
        run.engine.settings.conditions.allHold { f.conditionEnv run with lastFired }
          f.rule.conditions) := by
  rw [gate_stateOf]
  unfold mayFire gate
  dsimp only
  cases f.isAllowed (run.engine.states.stateOf f.ref) run.now with
  | false => simp
  | true => simp [conditionsHold, conditionEnv]

end Firing

theorem RuleStates.snapshot_eq_elim (s : RuleStates) (ref : RuleRef) :
    s.snapshot ref = ⟨ref.rule, ref.scope, (s.get? ref).elim 0 (·.fireCount),
      (s.get? ref).bind (·.lastFiredAny)⟩ := by
  unfold snapshot stateOf
  cases s.get? ref <;> rfl

namespace Engine

theorem isEnabled?_eq_elim (e : Engine) (ref : RuleRef) :
    e.isEnabled? ref = (e.catalog.rule? ref).map fun r =>
      (e.states.get? ref).elim r.enabled (·.isEnabled r.enabled) := by
  unfold isEnabled? RuleStates.stateOf
  cases e.states.get? ref <;> rfl

/-- Nothing that is asked of an engine from some time on tells whether a rule without a state had been
given the default one. The cases that there are for a missing state, in the gate of a firing and where
flags and records are read, come to the same as for the default one. -/
theorem answers_insert_default {e : Engine} {ref : RuleRef} (h : e.states.get? ref = none) :
    (∀ calls, answers { e with states := e.states.insert ref {} } calls = e.answers calls) ∧
      (∀ (f : Firing) (now : Instant), f.gate (some {}) now = f.gate none now) ∧
      (∀ (f : Firing) (run : Run), f.mayFire run = (!run.visited.contains f.ref &&
        (f.gate (run.engine.states.get? f.ref) run.now).any fun lastFired =>
          run.engine.settings.conditions.allHold { f.conditionEnv run with lastFired }
            f.rule.conditions)) ∧
      (∀ (d : Engine) (k : RuleRef), d.isEnabled? k = (d.catalog.rule? k).map fun r =>
        (d.states.get? k).elim r.enabled (·.isEnabled r.enabled)) ∧
      ∀ (states : RuleStates) (k : RuleRef), states.snapshot k = ⟨k.rule, k.scope,
        (states.get? k).elim 0 (·.fireCount), (states.get? k).bind (·.lastFiredAny)⟩ :=
  ⟨Alike.answers ⟨_, RuleStates.alike_insert_default h, rfl⟩, Firing.gate_default,
    Firing.mayFire_eq_gate, isEnabled?_eq_elim, RuleStates.snapshot_eq_elim⟩

def unrung : Content :=
  .ofRules (.room "cellar") [
    { Rule.plain "bell" .enter [⟨"message_room", .ofList [("text", .string "dong")], 0⟩] with
      maxFires := 1 }]

theorem answers_insert_default_unrung :
    ∃ e, Reaches (.builtin 8) [.load unrung 0] e ∧
      (e.catalog.rule? ⟨.room "cellar", "bell"⟩).isSome ∧
      e.states.get? ⟨.room "cellar", "bell"⟩ = none ∧ ∀ calls,
        answers { e with states := e.states.insert ⟨.room "cellar", "bell"⟩ {} } calls =
          e.answers calls := by
  obtain ⟨e, h, hp⟩ := exists_reaches (.builtin 8) [.load unrung 0]
    (fun e => (e.catalog.rule? ⟨.room "cellar", "bell"⟩).isSome &&
      (e.states.get? ⟨.room "cellar", "bell"⟩).isNone)
    (by simp [Operation.Authored, unrung, Content.Authored.ofRules]) (by decide +kernel)
  simp only [Bool.and_eq_true, Option.isNone_iff_eq_none] at hp
  exact ⟨e, h, hp.1, hp.2, (answers_insert_default hp.2).1⟩

end Engine

end WorldTriggers
