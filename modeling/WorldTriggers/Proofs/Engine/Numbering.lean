import WorldTriggers.Proofs.Engine.OperationSteps

/-!
The turns of jobs. Whatever an engine does moves its schedule in one of three ways, none of which gives a
turn twice, so that the next turn is always after those of all pending jobs.
-/

namespace WorldTriggers

namespace Schedule

variable {α : Type} {s t : Schedule α}

inductive Move : Schedule α → Schedule α → Prop where
  | register (s : Schedule α) (due : Instant) (interval : Option Span) (payload : α) :
      Move s (s.register due interval payload).2
  | cancelWhere (s : Schedule α) (p : Handle → Bool) : Move s (s.cancelWhere p)
  | rearm {s : Schedule α} {h : Handle} {r : Registration α} (hr : s.job? h = some r) (now : Instant) :
      Move s (s.rearm h r now)

def Moves : Schedule α → Schedule α → Prop := Relation.ReflTransGen Move

def InTurn (s : Schedule α) : Prop := ∀ h r, s.job? h = some r → r.turn < s.nextTurn

theorem Move.inTurn (h : Move s t) (hs : s.InTurn) : t.InTurn := by
  intro k q hq
  cases h with
  | register due interval payload =>
    rw [job?_register] at hq
    split at hq
    · rw [← Option.some.inj hq]
      exact Nat.lt_succ_self _
    · exact Nat.lt_succ_of_lt (hs k q hq)
  | cancelWhere p =>
    rw [job?_cancelWhere] at hq
    split at hq
    · cases hq
    · exact hs k q hq
  | @rearm j r hr now =>
    rw [job?_rearm] at hq
    cases hnext : nextTime? r now with
    | none =>
      rw [rearm_of_none hnext]
      rw [hnext] at hq
      split at hq
      · cases hq
      · exact hs k q hq
    | some due =>
      rw [rearm_of_some hnext]
      rw [hnext] at hq
      split at hq
      · rw [← Option.some.inj hq]
        exact Nat.lt_succ_self _
      · exact Nat.lt_succ_of_lt (hs k q hq)

theorem Moves.inTurn (h : Moves s t) (hs : s.InTurn) : t.InTurn := by
  induction h with
  | refl => exact hs
  | tail _ hmove ih => exact hmove.inTurn ih

theorem cancel_eq_cancelWhere (s : Schedule α) (h : Handle) : s.cancel h = s.cancelWhere (· == h) := by
  have hjobs : (s.cancel h).jobs = (s.cancelWhere (· == h)).jobs := by
    refine SortedMap.ext_get? fun k => ?_
    have hcancel := job?_cancel s h k
    have hwhere := job?_cancelWhere s (· == h) k
    simp only [beq_iff_eq] at hwhere
    exact hcancel.trans hwhere.symm
  exact congrArg (fun jobs => { s with jobs }) hjobs

end Schedule

namespace Engine

open Schedule (Moves Move)

variable {e e' : Engine} {op : Operation} {ds : List RuleEvent} {now : Instant}

theorem moves_disarmTimer (e : Engine) (ref : RuleRef) :
    Moves e.schedule (e.disarmTimer ref).schedule := by
  unfold disarmTimer
  dsimp only
  split
  · rw [Schedule.cancel_eq_cancelWhere]
    exact .single (.cancelWhere ..)
  · exact .refl

theorem moves_armTimer (e : Engine) (scope : Scope) (epoch : Nat) (r : Rule) (now : Instant) :
    Moves e.schedule (e.armTimer scope epoch r now).schedule := by
  cases hplan : r.timerPlan? with
  | none =>
    rw [armTimer_of_no_plan hplan]
    exact .refl
  | some plan =>
    rcases armTimer_eq hplan e scope epoch now with ⟨-, he⟩ | ⟨due, -, -, he⟩ <;> rw [he]
    · exact .refl
    · exact .single (.register ..)

theorem moves_setEnabled {ref : RuleRef} {enabled : Bool} {notice : Notice}
    (h : e.setEnabled ref enabled now = .ok (notice, e')) : Moves e.schedule e'.schedule := by
  obtain ⟨epoch, r, -, rfl⟩ := setEnabled_eq_ok h
  have hcancel (d : Engine) : Moves d.schedule (d.cancelDeferred (· == ref)).schedule :=
    .single (.cancelWhere ..)
  cases enabled with
  | true =>
    rw [if_pos rfl, switchedOn]
    split
    · exact moves_armTimer (e.flag ref true) ..
    · exact .refl
  | false =>
    rw [if_neg (by simp), switchedOff]
    split
    · exact (moves_disarmTimer (e.flag ref false) ref).trans (hcancel _)
    · exact hcancel (e.flag ref false)

theorem Step.moves (h : Step now e e') : Moves e.schedule e'.schedule := by
  cases h with
  | @record f hf =>
    unfold recordFiring
    dsimp only
    split
    · exact moves_disarmTimer
        { e with states := e.states.update f.ref (·.recordFiring f.cooldownKey now) } f.ref
    · exact .refl
  | switch h => exact moves_setEnabled h
  | expire => exact .single (.register ..)
  | putOff => exact .single (.register ..)

theorem Steps.moves (h : Steps now e e') : Moves e.schedule e'.schedule := by
  induction h with
  | refl => exact .refl
  | tail _ hs ih => exact ih.trans hs.moves

theorem moves_applyRecord (e : Engine) (r : Record) :
    Moves e.schedule (e.applyRecord r).2.schedule := by
  rcases applyRecord_cases e r with ⟨-, h⟩ | ⟨_, -, -, ⟨-, h⟩ | ⟨-, h⟩⟩ <;> rw [h]
  · exact .refl
  · exact moves_disarmTimer { e with states := e.states.update r.ref (·.restore r) } r.ref
  · exact .refl

theorem moves_restoreOne (e : Engine) (r : Record) : Moves e.schedule (e.restoreOne r).2.schedule := by
  unfold restoreOne
  split
  · exact moves_applyRecord e r
  · exact .refl

theorem moves_install {c : Content} {carried : List (RuleRef × RuleState)}
    (hrules : Content.Sound c.rules) (hsound : e.catalog.Sound) (now : Instant) :
    Moves e.schedule (e.install c carried now).2.schedule :=
  install_induct (motive := fun d => Moves e.schedule d.schedule) hrules hsound .refl
    (fun d r _ hd => hd.trans (moves_applyRecord d r)) fun d _ _ _ hd => hd.trans (moves_armTimer d ..)

theorem moves_detach (e : Engine) (scope : Scope) : Moves e.schedule (e.detach scope).schedule :=
  .tail (.single (.cancelWhere ..)) (.cancelWhere ..)

theorem moves_taken {k : Handle} {r : Registration Job} (hr : e.job? k = some r) (now : Instant) :
    Moves e.schedule (e.taken k r now).schedule := by
  rw [schedule_taken]
  exact .single (.rearm hr now)

theorem OperationStep.moves (hl : e.Linked) (h : OperationStep op e ds e') :
    Moves e.schedule e'.schedule := by
  cases h with
  | loaded hop ht hrules hc => exact moves_install hrules hl.catalog _
  | replaced hop ht hrules =>
    exact (moves_detach e _).trans (moves_install hrules (hl.detach _).catalog _)
  | removed => exact moves_detach ..
  | switched ht h => exact moves_setEnabled h
  | offered ht w hfs => exact (steps_attempts hfs _ w _).moves
  | popped ht hr => exact moves_taken hr _
  | woken ht w hr hdue hp => exact (moves_taken hr _).trans (hl.steps_resume hr hp w _).moves
  | restored => exact moves_restoreOne ..

theorem Reaches.inTurn {settings : Settings} {ops : List Operation} (h : Reaches settings ops e) :
    e.schedule.InTurn :=
  h.induct_operationSteps (motive := fun _ d => d.schedule.InTurn) (fun _ _ hr => nomatch hr)
    fun _ _ _ _ _ _ hl ht hd => (ht.moves hl).inTurn hd

end Engine

end WorldTriggers
