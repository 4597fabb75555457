import WorldTriggers.Proofs.Action
import WorldTriggers.Proofs.Engine.Operation

namespace WorldTriggers

namespace Engine

variable {e e' : Engine} {ref : RuleRef} {now : Instant}

def IsOn (e : Engine) (ref : RuleRef) : Prop := e.isEnabled? ref = some true

instance (e : Engine) (ref : RuleRef) : Decidable (e.IsOn ref) := by
  unfold IsOn
  infer_instance

def flagOf (e : Engine) (ref : RuleRef) : Option Bool := (e.states.stateOf ref).enabledOverride

theorem isEnabled?_eq (e : Engine) (ref : RuleRef) :
    e.isEnabled? ref = (e.catalog.rule? ref).map fun r => (e.flagOf ref).getD r.enabled := rfl

theorem isOn_iff : e.IsOn ref ↔
    ∃ rule, e.catalog.rule? ref = some rule ∧ (e.flagOf ref).getD rule.enabled = true := by
  simp [IsOn, isEnabled?_eq]

theorem IsOn.congr (h : e.IsOn ref) (hr : e'.catalog.rule? ref = e.catalog.rule? ref)
    (hf : e'.flagOf ref = e.flagOf ref) : e'.IsOn ref := by
  rw [isOn_iff] at h ⊢
  rwa [hr, hf]

structure KeepsFlags (e e' : Engine) : Prop where
  catalog : e'.catalog = e.catalog
  flags : ∀ ref, e'.flagOf ref = e.flagOf ref
  deferred : ∀ h r c, e'.job? h = some r → r.payload = .continuation c →
    ∃ q, e.job? h = some q ∧ q.payload = .continuation c

theorem KeepsFlags.isOn (h : KeepsFlags e e') (hon : e.IsOn ref) : e'.IsOn ref :=
  hon.congr (by rw [h.catalog]) (h.flags ref)

theorem KeepsFlags.refl (e : Engine) : KeepsFlags e e := ⟨rfl, fun _ => rfl, fun _ r _ hr hp => ⟨r, hr, hp⟩⟩

theorem KeepsFlags.trans {d : Engine} (h : KeepsFlags e e') (h' : KeepsFlags e' d) : KeepsFlags e d where
  catalog := h'.catalog.trans h.catalog
  flags ref := (h'.flags ref).trans (h.flags ref)
  deferred k r c hr hp := by
    obtain ⟨q, hq, hpq⟩ := h'.deferred k r c hr hp
    exact h.deferred k q c hq hpq

section KeepsFlags

theorem flagOf_update {f : RuleState → RuleState}
    (hf : (f (e.states.stateOf ref)).enabledOverride = e.flagOf ref) (k : RuleRef) :
    flagOf { e with states := e.states.update ref f } k = e.flagOf k := by
  unfold flagOf at hf ⊢
  dsimp only
  rw [RuleStates.stateOf_update]
  split
  · subst k
    exact hf
  · rfl

theorem keepsFlags_update {f : RuleState → RuleState}
    (hf : (f (e.states.stateOf ref)).enabledOverride = e.flagOf ref) :
    KeepsFlags e { e with states := e.states.update ref f } :=
  ⟨rfl, flagOf_update hf, fun _ r _ hr hp => ⟨r, hr, hp⟩⟩

theorem keepsFlags_disarmTimer (e : Engine) (ref : RuleRef) : KeepsFlags e (e.disarmTimer ref) :=
  ⟨rfl, flagOf_update rfl, fun _ r _ hr hp => ⟨r, (job?_of_disarmTimer hr).2, hp⟩⟩

theorem keepsFlags_armTimer (e : Engine) (scope : Scope) (epoch : Nat) (r : Rule) (now : Instant) :
    KeepsFlags e (e.armTimer scope epoch r now) := by
  cases hplan : r.timerPlan? with
  | none =>
    rw [armTimer_of_no_plan hplan]
    exact .refl e
  | some plan =>
    have htouch : KeepsFlags e (e.touch ⟨scope, r.id⟩) := keepsFlags_update rfl
    rcases armTimer_eq hplan e scope epoch now with ⟨-, he⟩ | ⟨due, -, -, he⟩
    · rwa [he]
    · rw [he]
      refine htouch.trans ⟨rfl, flagOf_update rfl, fun h q c hq hp => ?_⟩
      have hjob := Schedule.job?_register (e.touch ⟨scope, r.id⟩).schedule due
        (if 0 < plan.interval then some plan.interval else none)
        (.ruleTimer ⟨scope, r.id⟩ epoch) h
      rw [show ((e.touch ⟨scope, r.id⟩).startTimer ⟨scope, r.id⟩ epoch plan.interval due).job? h = _
        from hjob] at hq
      split at hq
      · cases hq
        cases hp
      · exact ⟨q, hq, hp⟩

theorem keepsFlags_recordFiring (e : Engine) (f : Firing) (now : Instant) :
    KeepsFlags e (e.recordFiring f now) := by
  unfold recordFiring
  dsimp only
  have hupdate : KeepsFlags e { e with
      states := e.states.update f.ref (·.recordFiring f.cooldownKey now) } := keepsFlags_update rfl
  split
  · exact hupdate.trans (keepsFlags_disarmTimer ..)
  · exact hupdate

theorem keepsFlags_taken {h : Handle} {r : Registration Job} (hr : e.job? h = some r) (now : Instant) :
    KeepsFlags e (e.taken h r now) := by
  refine ⟨catalog_taken .., fun ref => ?_, fun k q c hq hp => ?_⟩
  · rw [flagOf, states_taken]
    rfl
  · obtain ⟨p, hj, hpq⟩ := job?_of_taken hr hq
    exact ⟨p, hj, hpq.trans hp⟩

theorem keepsFlags_scheduleExpiry (e : Engine) (actor : ActorId) (effect : String)
    (stat : Option StatChange) (due : Instant) :
    KeepsFlags e (e.scheduleExpiry actor effect stat due) := by
  refine ⟨rfl, fun _ => rfl, fun h q c hq hp => ?_⟩
  rw [job?_scheduleExpiry] at hq
  split at hq
  · cases hq
    cases hp
  · exact ⟨q, hq, hp⟩

theorem keepsFlags_applyRecord (e : Engine) (r : Record) : KeepsFlags e (e.applyRecord r).2 := by
  rcases applyRecord_cases e r with ⟨-, h⟩ | ⟨_, -, -, ⟨-, h⟩ | ⟨-, h⟩⟩ <;> rw [h]
  · exact .refl e
  · exact (keepsFlags_update rfl).trans (keepsFlags_disarmTimer ..)
  · exact keepsFlags_update rfl

theorem keepsFlags_restoreOne (e : Engine) (r : Record) : KeepsFlags e (e.restoreOne r).2 := by
  unfold restoreOne
  split
  · exact keepsFlags_applyRecord e r
  · exact ⟨rfl, fun _ => rfl, fun _ q _ hq hp => ⟨q, hq, hp⟩⟩

end KeepsFlags

section SetEnabled

variable {k : RuleRef} {enabled : Bool} {notice : Notice}

theorem flagOf_flag (e : Engine) (k : RuleRef) (enabled : Bool) (ref : RuleRef) :
    (e.flag k enabled).flagOf ref = if ref = k then some enabled else e.flagOf ref := by
  unfold flagOf flag
  dsimp only
  rw [RuleStates.stateOf_update]
  split <;> rfl

theorem exists_setEnabled {epoch : Nat} {rule : Rule} (ht : e.target? ref = some (epoch, rule))
    (enabled : Bool) (now : Instant) : ∃ notice e', e.setEnabled ref enabled now = .ok (notice, e') :=
  ⟨_, _, setEnabled_of_target? ht enabled now⟩

theorem keepsFlags_setEnabled (h : e.setEnabled k enabled now = .ok (notice, e')) :
    KeepsFlags (e.flag k enabled) e' := by
  obtain ⟨epoch, r, -, rfl⟩ := setEnabled_eq_ok h
  cases enabled with
  | true =>
    rw [if_pos rfl, switchedOn]
    split
    · exact keepsFlags_armTimer ..
    · exact .refl _
  | false =>
    have hcancel (d : Engine) : KeepsFlags d (d.cancelDeferred (· == k)) :=
      ⟨rfl, fun _ => rfl, fun _ q _ hq hp => ⟨q, (job?_of_cancelDeferred hq).2, hp⟩⟩
    rw [if_neg (by simp), switchedOff]
    split
    · exact (keepsFlags_disarmTimer ..).trans (hcancel _)
    · exact hcancel _

theorem IsOn.setEnabled (hon : e.IsOn ref) (h : e.setEnabled k enabled now = .ok (notice, e'))
    (hk : ref = k → enabled = true) : e'.IsOn ref := by
  refine (keepsFlags_setEnabled h).isOn ?_
  rw [isOn_iff] at hon ⊢
  obtain ⟨rule, hr, hf⟩ := hon
  refine ⟨rule, hr, ?_⟩
  rw [flagOf_flag]
  split
  · rw [hk ‹_›]
    rfl
  · exact hf

end SetEnabled

end Engine

theorem Run.isOn_of_mayFire {f : Firing} {run : Run} (hf : run.engine.Installed f)
    (hm : f.mayFire run) : run.engine.IsOn f.ref := by
  rw [Engine.isOn_iff]
  refine ⟨f.rule, (Engine.target?_eq_some_iff.mp hf).2, ?_⟩
  simp only [Firing.mayFire, Firing.isAllowed, Bool.and_eq_true] at hm
  exact hm.1.2.1.1

end WorldTriggers
