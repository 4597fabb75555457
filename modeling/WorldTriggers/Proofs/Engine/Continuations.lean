import WorldTriggers.Proofs.Engine.OperationSteps

namespace WorldTriggers.Engine

variable {e e' : Engine} {now : Instant}

def putOff? (e : Engine) (h : Handle) : Option (Continuation × Instant) :=
  (e.job? h).bind fun r =>
    match r.payload with
    | .continuation c => some (c, r.due)
    | _ => none

theorem putOff?_eq_some_iff {h : Handle} {c : Continuation} {due : Instant} :
    e.putOff? h = some (c, due) ↔
      ∃ r, e.job? h = some r ∧ r.payload = .continuation c ∧ r.due = due := by
  unfold putOff?
  rw [Option.bind_eq_some_iff]
  refine exists_congr fun r => and_congr_right fun _ => ?_
  cases r.payload with
  | continuation d => simp
  | ruleTimer | expireEffect => simp

def Retains (e : Engine) (p : RuleRef → Bool) (e' : Engine) : Prop :=
  ∀ h, e'.putOff? h = (e.putOff? h).filter fun x => p x.1.firing.ref

def Awaiting (e e' : Engine) : Prop := ∀ h, e'.putOff? h = e.putOff? h

theorem Awaiting.refl (e : Engine) : Awaiting e e := fun _ => rfl

theorem Awaiting.trans {d : Engine} (h : Awaiting e e') (h' : Awaiting e' d) : Awaiting e d :=
  fun k => (h' k).trans (h k)

theorem Retains.of_awaiting {d : Engine} {p : RuleRef → Bool} (h : Awaiting e e')
    (h' : Retains e' p d) : Retains e p d := fun k => by rw [h' k, h k]

theorem putOff?_congr {h : Handle} (hj : e'.job? h = e.job? h) : e'.putOff? h = e.putOff? h := by
  unfold putOff?
  rw [hj]

theorem awaiting_of_schedule (h : e'.schedule = e.schedule) : Awaiting e e' := fun k => by
  refine putOff?_congr ?_
  unfold job?
  rw [h]

theorem Linked.putOff?_nextHandle (hl : e.Linked) : e.putOff? e.schedule.nextHandle = none := by
  unfold putOff?
  cases hj : e.job? e.schedule.nextHandle with
  | none => rfl
  | some r => exact absurd (hl.issued _ _ hj).1 (Nat.lt_irrefl _)

theorem Linked.of_putOff? (hl : e.Linked) {h : Handle} {c : Continuation} {due : Instant}
    (hc : e.putOff? h = some (c, due)) :
    e.Installed c.firing ∧ e.deferred.get? h = some c.firing.ref := by
  obtain ⟨r, hj, hp, -⟩ := putOff?_eq_some_iff.mp hc
  have hfits := hl.fits h r hj
  simp only [Fits, hp] at hfits
  exact ⟨hfits.1, hfits.2.2.2⟩

theorem Linked.putOff?_of_timerOf (hl : e.Linked) {ref : RuleRef} {h : Handle}
    (ht : e.timerOf ref = some h) : e.putOff? h = none := by
  unfold putOff?
  cases hj : e.job? h with
  | none => rfl
  | some r =>
    obtain ⟨epoch, hp⟩ := (hl.timers ref h ht).2 r hj
    simp [hp]

theorem Linked.awaiting_register {due : Instant} {interval : Option Span} {payload : Job}
    (hl : e.Linked) (hschedule : e'.schedule = (e.schedule.register due interval payload).2)
    (hp : ∀ c, payload ≠ .continuation c) : Awaiting e e' := by
  intro h
  have hjob : e'.job? h = if h = e.schedule.nextHandle then
      some ⟨due, e.schedule.nextTurn, interval, payload⟩ else e.job? h := by
    rw [job?, hschedule, Schedule.job?_register]
    rfl
  split at hjob
  · subst h
    rw [hl.putOff?_nextHandle, putOff?, hjob, Option.bind_some]
    cases payload with
    | continuation c => exact absurd rfl (hp c)
    | ruleTimer | expireEffect => rfl
  · exact putOff?_congr hjob

theorem Linked.awaiting_scheduleExpiry (hl : e.Linked) (actor : ActorId) (effect : String)
    (stat : Option StatChange) (due : Instant) :
    Awaiting e (e.scheduleExpiry actor effect stat due) :=
  hl.awaiting_register rfl fun _ h => nomatch h

theorem putOff?_scheduleContinuation (e : Engine) (c : Continuation) (due : Instant) (h : Handle) :
    (e.scheduleContinuation c due).putOff? h =
      if h = e.schedule.nextHandle then some (c, due) else e.putOff? h := by
  unfold putOff?
  rw [job?_scheduleContinuation]
  by_cases hh : h = e.schedule.nextHandle
  · rw [if_pos hh, if_pos hh, Option.bind_some]
  · rw [if_neg hh, if_neg hh]

theorem Linked.awaiting_disarmTimer (hl : e.Linked) (ref : RuleRef) :
    Awaiting e (e.disarmTimer ref) := by
  intro h
  have hjob := job?_disarmTimer e ref h
  split at hjob
  · rw [hl.putOff?_of_timerOf ‹_›, putOff?, hjob]
    rfl
  · exact putOff?_congr hjob

theorem Linked.awaiting_armTimer {scope : Scope} {epoch : Nat} {r : Rule} (hl : e.Linked)
    (ht : e.target? ⟨scope, r.id⟩ = some (epoch, r)) (now : Instant) :
    Awaiting e (e.armTimer scope epoch r now) := by
  cases hplan : r.timerPlan? with
  | none =>
    rw [armTimer_of_no_plan hplan]
    exact .refl e
  | some plan =>
    have htouch : Awaiting e (e.touch ⟨scope, r.id⟩) := awaiting_of_schedule rfl
    rcases armTimer_eq hplan e scope epoch now with ⟨-, he⟩ | ⟨due, -, -, he⟩
    · rwa [he]
    · rw [he]
      refine htouch.trans ((hl.touch (isSome_of_target? ht)).awaiting_register rfl ?_)
      exact fun _ h => nomatch h

theorem Linked.retains_cancelDeferred (hl : e.Linked) (p : RuleRef → Bool) :
    Retains e (!p ·) (e.cancelDeferred p) := by
  intro h
  have hjob := job?_cancelDeferred e p h
  cases hc : e.putOff? h with
  | none =>
    rw [Option.filter_none, putOff?]
    split at hjob
    · rw [hjob]
      rfl
    · rw [hjob]
      exact hc
  | some x =>
    obtain ⟨c, due⟩ := x
    rw [(hl.of_putOff? hc).2, Option.any_some] at hjob
    rw [Option.filter_some]
    by_cases hp : p c.firing.ref = true
    · rw [if_pos hp] at hjob
      rw [if_neg (by simp [hp]), putOff?, hjob]
      rfl
    · rw [if_neg hp] at hjob
      rw [if_pos (by simp [hp])]
      exact (putOff?_congr hjob).trans hc

theorem Linked.retains_setEnabled {ref : RuleRef} {enabled : Bool} {notice : Notice} (hl : e.Linked)
    (h : e.setEnabled ref enabled now = .ok (notice, e')) :
    Retains e (fun k => enabled || k != ref) e' := by
  obtain ⟨epoch, r, ht, rfl⟩ := setEnabled_eq_ok h
  have hflag : Awaiting e (e.flag ref enabled) := awaiting_of_schedule rfl
  have hlinked := hl.flag (isSome_of_target? ht) enabled
  cases enabled with
  | true =>
    have hon : Awaiting e (e.switchedOn ref epoch r now) := by
      unfold switchedOn
      split
      · have hid := Catalog.id_of_rule? (target?_eq_some_iff.mp ht).2
        exact hflag.trans (hlinked.awaiting_armTimer (by rw [hid]; exact ht) now)
      · exact hflag
    intro k
    rw [if_pos rfl, hon k]
    cases e.putOff? k <;> rfl
  | false =>
    rw [if_neg (by simp), switchedOff]
    split
    · exact .of_awaiting (hflag.trans (hlinked.awaiting_disarmTimer ref))
        ((hlinked.disarmTimer (isSome_of_target? ht)).retains_cancelDeferred _)
    · exact .of_awaiting hflag (hlinked.retains_cancelDeferred _)

theorem Linked.awaiting_recordFiring {f : Firing} (hl : e.Linked) (hf : e.Installed f) :
    Awaiting e (e.recordFiring f now) := by
  unfold Engine.recordFiring
  dsimp only
  split
  · exact (awaiting_of_schedule rfl).trans
      ((hl.update (isSome_of_target? hf) rfl).awaiting_disarmTimer f.ref)
  · exact awaiting_of_schedule rfl

theorem Linked.awaiting_applyRecord (hl : e.Linked) (r : Record) :
    Awaiting e (e.applyRecord r).2 := by
  rcases applyRecord_cases e r with ⟨-, h⟩ | ⟨rule, hr, -, ⟨-, h⟩ | ⟨-, h⟩⟩ <;> rw [h]
  · exact .refl e
  · exact (awaiting_of_schedule rfl).trans
      ((hl.update (by simp [hr]) rfl).awaiting_disarmTimer r.ref)
  · exact awaiting_of_schedule rfl

theorem Linked.awaiting_restoreOne (hl : e.Linked) (r : Record) :
    Awaiting e (e.restoreOne r).2 := by
  unfold Engine.restoreOne
  split
  · exact hl.awaiting_applyRecord r
  · exact awaiting_of_schedule rfl

theorem Linked.awaiting_install {c : Content} {carried : List (RuleRef × RuleState)} (hl : e.Linked)
    (hc : e.catalog.contains c.scope = false) (hrules : Content.Sound c.rules)
    (hcarries : Carries c carried) (now : Instant) : Awaiting e (e.install c carried now).2 := by
  have hboth : (e.install c carried now).2.Linked ∧ Awaiting e (e.install c carried now).2 :=
    install_induct (motive := fun e' => e'.Linked ∧ Awaiting e e') hrules hl.catalog
      ⟨hl.placed hc hrules hcarries, awaiting_of_schedule rfl⟩
      (fun _ r _ h => ⟨h.1.applyRecord r, h.2.trans (h.1.awaiting_applyRecord r)⟩)
      fun _ _ _ ht h => ⟨h.1.armTimer ht now, h.2.trans (h.1.awaiting_armTimer ht now)⟩
  exact hboth.2

theorem Linked.retains_detach (hl : e.Linked) (scope : Scope) :
    Retains e (fun ref => ref.scope != scope) (e.detach scope) := by
  intro h
  have hjob := job?_detach e scope h
  have hcancelled := hl.retains_cancelDeferred (·.scope == scope) h
  split at hjob
  · rename_i htimer
    obtain ⟨ref, -, ht⟩ := mem_timersOf.mp htimer
    rw [hl.putOff?_of_timerOf ht, putOff?, hjob]
    rfl
  · exact (putOff?_congr hjob).trans hcancelled

theorem Linked.awaiting_detach (hl : e.Linked) {scope : Scope}
    (hc : e.catalog.contains scope = false) : Awaiting e (e.detach scope) := by
  intro h
  rw [hl.retains_detach scope h]
  cases hx : e.putOff? h with
  | none => rfl
  | some x =>
    have hloaded := Catalog.contains_of_rule? (target?_eq_some_iff.mp (hl.of_putOff? hx).1).2
    have hne : x.1.firing.ref.scope ≠ scope := by
      rintro rfl
      simp [hloaded] at hc
    rw [Option.filter_some, if_pos (by simpa using hne)]

theorem Linked.putOff?_taken {k : Handle} {r : Registration Job} (hl : e.Linked)
    (hr : e.job? k = some r) (now : Instant) (h : Handle) :
    (e.taken k r now).putOff? h = if h = k then none else e.putOff? h := by
  have hjob := job?_taken e k r now h
  by_cases hh : h = k
  · subst h
    rw [if_pos rfl] at hjob
    rw [if_pos rfl, putOff?, hjob]
    cases hnext : Schedule.nextTime? r now with
    | none => rfl
    | some due =>
      obtain ⟨ref, epoch, hp⟩ :=
        (hl.fits k r hr).payload_of_interval (interval_isSome_of_nextTime? hnext)
      simp [hp]
  · rw [if_neg hh] at hjob
    rw [if_neg hh]
    exact putOff?_congr hjob

theorem Linked.awaiting_taken {k : Handle} {r : Registration Job} (hl : e.Linked)
    (hr : e.job? k = some r) (hp : ∀ c, r.payload ≠ .continuation c) (now : Instant) :
    Awaiting e (e.taken k r now) := by
  intro h
  rw [hl.putOff?_taken hr]
  split
  · subst h
    rw [putOff?, hr, Option.bind_some]
    cases hpayload : r.payload with
    | continuation c => exact absurd hpayload (hp c)
    | ruleTimer | expireEffect => rfl
  · rfl

end WorldTriggers.Engine
