import WorldTriggers.Proofs.Engine.Confinement
import WorldTriggers.Proofs.Engine.WorldEvents

namespace WorldTriggers

def Job.isExpiry : Job → Bool
  | expireEffect .. => true
  | ruleTimer .. => false
  | continuation _ => false

namespace Engine

variable {e e' : Engine} {ref : RuleRef} {op : Operation} {now : Instant}

def expiries (e : Engine) : SortedMap Handle (Registration Job) :=
  e.schedule.jobs.filter fun _ r => r.payload.isExpiry

theorem get?_expiries (e : Engine) (h : Handle) :
    e.expiries.get? h = (e.job? h).filter (·.payload.isExpiry) :=
  SortedMap.get?_filter ..

theorem get?_expiries_eq_some_iff {h : Handle} {r : Registration Job} :
    e.expiries.get? h = some r ↔ e.job? h = some r ∧ r.payload.isExpiry = true := by
  rw [get?_expiries, Option.filter_eq_some_iff]

theorem expiries_congr (h : ∀ k, e'.job? k = e.job? k ∨
    (∀ r, e.job? k = some r → r.payload.isExpiry = false) ∧
      ∀ r, e'.job? k = some r → r.payload.isExpiry = false) : e'.expiries = e.expiries := by
  refine SortedMap.ext_get? fun k => ?_
  rw [get?_expiries, get?_expiries]
  rcases h k with hsame | ⟨hold, hnew⟩
  · rw [hsame]
  · have hnone {o : Option (Registration Job)} (ho : ∀ r, o = some r → r.payload.isExpiry = false) :
        o.filter (·.payload.isExpiry) = none := by
      rw [Option.filter_eq_none_iff]
      exact fun r hr => by simp [ho r hr]
    rw [hnone hnew, hnone hold]

theorem expiries_of_cancelled {p : Handle → Prop} [DecidablePred p]
    (hjob : ∀ k, e'.job? k = if p k then none else e.job? k)
    (hp : ∀ k r, p k → e.job? k = some r → r.payload.isExpiry = false) : e'.expiries = e.expiries := by
  refine expiries_congr fun k => ?_
  rw [hjob]
  split
  · exact .inr ⟨fun r => hp k r ‹_›, by simp⟩
  · exact .inl rfl

theorem Linked.expiries_register (hl : e.Linked) {due : Instant} {interval : Option Span} {payload : Job}
    (hschedule : e'.schedule = (e.schedule.register due interval payload).2)
    (hp : payload.isExpiry = false) : e'.expiries = e.expiries := by
  refine expiries_congr fun k => ?_
  have hjob : e'.job? k = if k = e.schedule.nextHandle then
      some ⟨due, e.schedule.nextTurn, interval, payload⟩ else e.job? k := by
    rw [job?, hschedule, Schedule.job?_register]
    rfl
  rw [hjob]
  split
  · subst k
    right
    rw [hl.job?_nextHandle]
    exact ⟨by simp, by simpa using hp⟩
  · exact .inl rfl

theorem Linked.expiries_disarmTimer (hl : e.Linked) (ref : RuleRef) :
    (e.disarmTimer ref).expiries = e.expiries := by
  refine expiries_of_cancelled (job?_disarmTimer e ref) fun k r ht hr => ?_
  obtain ⟨epoch, hp⟩ := (hl.timers ref k ht).2 r hr
  rw [hp]
  rfl

theorem Linked.expiries_cancelDeferred (hl : e.Linked) (p : RuleRef → Bool) :
    (e.cancelDeferred p).expiries = e.expiries := by
  refine expiries_of_cancelled (job?_cancelDeferred e p) fun k r hany hr => ?_
  obtain ⟨ref, hd, -⟩ := (Option.any_eq_true _ _).mp hany
  obtain ⟨q, c, hq, hp, -⟩ := hl.deferred k ref hd
  rw [← Option.some.inj (hq.symm.trans hr), hp]
  rfl

theorem Linked.expiries_armTimer (hl : e.Linked) (scope : Scope) (epoch : Nat) (r : Rule)
    (now : Instant) : (e.armTimer scope epoch r now).expiries = e.expiries := by
  cases hplan : r.timerPlan? with
  | none => rw [armTimer_of_no_plan hplan]
  | some plan =>
    rcases armTimer_eq hplan e scope epoch now with ⟨-, he⟩ | ⟨due, -, -, he⟩ <;> rw [he]
    · rfl
    · exact hl.expiries_register rfl rfl

theorem Linked.expiries_setEnabled {enabled : Bool} {notice : Notice} (hl : e.Linked)
    (h : e.setEnabled ref enabled now = .ok (notice, e')) : e'.expiries = e.expiries := by
  obtain ⟨epoch, r, ht, rfl⟩ := setEnabled_eq_ok h
  have hr := isSome_of_target? ht
  cases enabled with
  | true =>
    rw [if_pos rfl, switchedOn]
    split
    · exact (hl.flag hr true).expiries_armTimer ..
    · rfl
  | false =>
    rw [if_neg (by simp), switchedOff]
    split
    · exact (((hl.flag hr false).disarmTimer hr).expiries_cancelDeferred _).trans
        ((hl.flag hr false).expiries_disarmTimer ref)
    · exact (hl.flag hr false).expiries_cancelDeferred _

theorem Linked.expiries_recordFiring {f : Firing} (hl : e.Linked) (hf : e.Installed f) (now : Instant) :
    (e.recordFiring f now).expiries = e.expiries := by
  unfold Engine.recordFiring
  dsimp only
  split
  · have hupdate := hl.update (isSome_of_target? hf) (f := (·.recordFiring f.cooldownKey now)) rfl
    exact hupdate.expiries_disarmTimer f.ref
  · rfl

theorem Linked.expiries_scheduleContinuation (hl : e.Linked) (c : Continuation) (due : Instant) :
    (e.scheduleContinuation c due).expiries = e.expiries := hl.expiries_register rfl rfl

theorem expiries_scheduleExpiry (e : Engine) (actor : ActorId) (effect : String)
    (stat : Option StatChange) (due : Instant) : (e.scheduleExpiry actor effect stat due).expiries =
      e.expiries.insert e.schedule.nextHandle
        ⟨due, e.schedule.nextTurn, none, .expireEffect actor effect stat⟩ := by
  refine SortedMap.ext_get? fun k => ?_
  rw [get?_expiries, job?_scheduleExpiry, SortedMap.get?_insert, get?_expiries]
  split <;> rfl

section Lifecycle

variable {c : Content} {carried : List (RuleRef × RuleState)}

theorem Linked.expiries_applyRecord (hl : e.Linked) (r : Record) :
    (e.applyRecord r).2.expiries = e.expiries := by
  rcases applyRecord_cases e r with ⟨-, h⟩ | ⟨rule, hr, -, ⟨-, h⟩ | ⟨-, h⟩⟩ <;> rw [h]
  · have hinstalled : (e.catalog.rule? r.ref).isSome := by simp [hr]
    have hupdate := hl.update hinstalled (f := (·.restore r)) rfl
    exact hupdate.expiries_disarmTimer r.ref
  · rfl

theorem Linked.expiries_restoreOne (hl : e.Linked) (r : Record) :
    (e.restoreOne r).2.expiries = e.expiries := by
  unfold Engine.restoreOne
  split
  · exact hl.expiries_applyRecord r
  · rfl

theorem Linked.expiries_install (hl : e.Linked) (hc : e.catalog.contains c.scope = false)
    (hrules : Content.Sound c.rules) (hcarries : Carries c carried) (now : Instant) :
    (e.install c carried now).2.expiries = e.expiries := by
  have hboth : (e.install c carried now).2.Linked ∧ (e.install c carried now).2.expiries = e.expiries :=
    install_induct (motive := fun d => d.Linked ∧ d.expiries = e.expiries) hrules hl.catalog
      ⟨hl.placed hc hrules hcarries, rfl⟩
      (fun _ r _ h => ⟨h.1.applyRecord r, (h.1.expiries_applyRecord r).trans h.2⟩)
      fun _ _ _ ht h => ⟨h.1.armTimer ht now, (h.1.expiries_armTimer ..).trans h.2⟩
  exact hboth.2

theorem Linked.expiries_detach (hl : e.Linked) (scope : Scope) :
    (e.detach scope).expiries = e.expiries := by
  rw [← hl.expiries_cancelDeferred (·.scope == scope)]
  refine expiries_of_cancelled (job?_detach e scope) fun k r hm hr => ?_
  obtain ⟨ref, -, ht⟩ := mem_timersOf.mp hm
  obtain ⟨epoch, hp⟩ := (hl.timers ref k ht).2 r (job?_of_cancelDeferred hr).2
  rw [hp]
  rfl

theorem Linked.expiries_reload (hl : e.Linked) (hrules : Content.Sound c.rules) (now : Instant) :
    (e.reload c now).2.expiries = e.expiries :=
  ((hl.detach c.scope).expiries_install (not_contains_detach ..) hrules (carries_carriedStates e c)
    now).trans (hl.expiries_detach c.scope)

end Lifecycle

theorem expiries_taken {k : Handle} {r : Registration Job} (hl : e.Linked) (hr : e.job? k = some r)
    (now : Instant) : (e.taken k r now).expiries = e.expiries.erase k := by
  refine SortedMap.ext_get? fun j => ?_
  rw [get?_expiries, job?_taken, SortedMap.get?_erase, get?_expiries]
  split
  · -- Only a timer is ever due again.
    rw [Option.filter_eq_none_iff]
    intro q hq
    obtain ⟨due, hdue, rfl⟩ := Option.map_eq_some_iff.mp hq
    obtain ⟨ref, epoch, hp⟩ :=
      (hl.fits k r hr).payload_of_interval (interval_isSome_of_nextTime? hdue)
    simp [hp, Job.isExpiry]
  · rfl

theorem Linked.expiries_perform (hl : e.Linked) (ha : op.Authored) (hp : e.perform op = some e')
    (hop : op.world? = none) : e'.expiries = e.expiries := by
  cases op with
  | load c now =>
    cases hp
    rcases load_eq_install e c now with ⟨h, hc⟩ | h <;> rw [h]
    · exact hl.expiries_install hc ha.sound (carries_nil c) now
    · exact hl.expiries_reload ha.sound now
  | reload c now =>
    cases hp
    exact hl.expiries_reload ha.sound now
  | unload scope =>
    cases hp
    unfold unload
    split
    · exact hl.expiries_detach scope
    · rfl
  | setEnabled ref enabled now =>
    unfold perform at hp
    dsimp only at hp
    split at hp
    · cases hp
      exact hl.expiries_setEnabled ‹_›
    · cases hp
      rfl
  | restore records =>
    cases hp
    have hboth : (e.restore records).2.Linked ∧ (e.restore records).2.expiries = e.expiries :=
      restore_induct (motive := fun d => d.Linked ∧ d.expiries = e.expiries) records
        (fun _ r h => ⟨h.1.restoreOne r, (h.1.expiries_restoreOne r).trans h.2⟩) ⟨hl, rfl⟩
    exact hboth.2
  | fire | handle | fireRule | advance => cases hop

end Engine

end WorldTriggers
