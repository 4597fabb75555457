import WorldTriggers.Proofs.Engine.Linked

namespace WorldTriggers.Engine

variable {e : Engine} {ref : RuleRef} {now : Instant}

section ArmTimer

variable {scope : Scope} {epoch : Nat} {r : Rule}

theorem Linked.armTimer (hl : e.Linked) (ht : e.target? ⟨scope, r.id⟩ = some (epoch, r))
    (now : Instant) : (e.armTimer scope epoch r now).Linked := by
  cases hplan : r.timerPlan? with
  | none => rwa [armTimer_of_no_plan hplan]
  | some plan =>
    have htouch := hl.touch (isSome_of_target? ht)
    rcases armTimer_eq hplan e scope epoch now with ⟨-, he⟩ | ⟨due, hn, hdue, he⟩
    · rwa [he]
    · rw [he]
      exact htouch.startTimer ht hplan hn (Instant.after?_eq_some_iff.mp hdue).2.1

theorem wantsTimer_touch {k : RuleRef} : (e.touch ref).WantsTimer k ↔ e.WantsTimer k := by
  simp only [WantsTimer, stateOf_touch]
  rfl

theorem Live.armTimer (hv : e.Live) (ht : e.target? ⟨scope, r.id⟩ = some (epoch, r))
    (now : Instant) : (e.armTimer scope epoch r now).Live := by
  cases hplan : r.timerPlan? with
  | none => rwa [armTimer_of_no_plan hplan]
  | some plan =>
    have htouch : (e.touch ⟨scope, r.id⟩).Live :=
      hv.mono fun k q _ _ hq hp => ⟨⟨q, hq, hp⟩, wantsTimer_touch.mpr⟩
    rcases armTimer_eq hplan e scope epoch now with ⟨-, he⟩ | ⟨due, hn, -, he⟩
    · rwa [he]
    · rw [he]
      refine htouch.register rfl (fun _ => wantsTimer_startTimer.mpr) fun k _ hp => ?_
      obtain ⟨rfl, -⟩ := Job.ruleTimer.inj hp
      exact wantsTimer_startTimer.mpr
        ⟨r, (target?_eq_some_iff.mp ht).2, event_of_timerPlan? hplan, hn.2⟩

@[simp] theorem catalog_armTimer (e : Engine) (scope : Scope) (epoch : Nat) (r : Rule)
    (now : Instant) : (e.armTimer scope epoch r now).catalog = e.catalog := by
  cases hplan : r.timerPlan? with
  | none => rw [armTimer_of_no_plan hplan]
  | some plan =>
    rcases armTimer_eq hplan e scope epoch now with ⟨-, he⟩ | ⟨_, _, _, he⟩ <;> rw [he] <;> rfl

theorem job?_of_armTimer {h : Handle} {q : Registration Job}
    (hq : (e.armTimer scope epoch r now).job? h = some q) :
    e.job? h = some q ∨ q.payload = .ruleTimer ⟨scope, r.id⟩ epoch ∧
      ∃ plan, r.timerPlan? = some plan ∧ now.after? plan.initial = some q.due := by
  cases hplan : r.timerPlan? with
  | none =>
    rw [armTimer_of_no_plan hplan] at hq
    exact .inl hq
  | some plan =>
    rcases armTimer_eq hplan e scope epoch now with ⟨-, he⟩ | ⟨due, -, hdue, he⟩
    · rw [he] at hq
      exact .inl hq
    · rw [he, job?, startTimer, Schedule.every, Schedule.job?_register] at hq
      split at hq
      · obtain rfl := Option.some.inj hq
        exact .inr ⟨rfl, plan, rfl, hdue⟩
      · exact .inl hq

end ArmTimer

section CancelDeferred

variable {p : RuleRef → Bool}

theorem job?_cancelDeferred (e : Engine) (p : RuleRef → Bool) (h : Handle) :
    (e.cancelDeferred p).job? h = if (e.deferred.get? h).any p then none else e.job? h :=
  Schedule.job?_cancelWhere ..

theorem get?_cancelDeferred (e : Engine) (p : RuleRef → Bool) (h : Handle) :
    (e.cancelDeferred p).deferred.get? h = (e.deferred.get? h).filter fun ref => !p ref :=
  SortedMap.get?_filter ..

theorem job?_of_cancelDeferred {h : Handle} {r : Registration Job}
    (hj : (e.cancelDeferred p).job? h = some r) :
    (∀ k, e.deferred.get? h = some k → p k = false) ∧ e.job? h = some r := by
  rw [job?_cancelDeferred] at hj
  split at hj
  · cases hj
  · rename_i hp
    refine ⟨fun k hk => ?_, hj⟩
    simpa [hk] using hp

theorem Linked.cancelDeferred (hl : e.Linked) (p : RuleRef → Bool) :
    (e.cancelDeferred p).Linked := by
  refine { hl with fits := ?_, issued := ?_, timers := ?_, deferred := ?_ }
  · intro h r hj
    obtain ⟨hp, hj⟩ := job?_of_cancelDeferred hj
    refine (hl.fits h r hj).mono (fun _ _ => rfl) (fun _ => id) fun k hk => ?_
    rw [get?_cancelDeferred, hk, Option.filter_some, hp k hk]
    rfl
  · exact fun h r hj => hl.issued h r (job?_of_cancelDeferred hj).2
  · intro k h hk
    obtain ⟨hlt, hjob⟩ := hl.timers k h hk
    exact ⟨hlt, fun r hj => hjob r (job?_of_cancelDeferred hj).2⟩
  · intro h k hd
    rw [get?_cancelDeferred, Option.filter_eq_some_iff] at hd
    obtain ⟨r, c, hj, hp, hc⟩ := hl.deferred h k hd.1
    refine ⟨r, c, ?_, hp, hc⟩
    rw [job?_cancelDeferred, hd.1, if_neg (by simpa using hd.2), hj]

theorem Live.cancelDeferred (hv : e.Live) (p : RuleRef → Bool) : (e.cancelDeferred p).Live :=
  hv.mono fun _ q _ _ hj hp => ⟨⟨q, (job?_of_cancelDeferred hj).2, hp⟩, fun hw => hw⟩

end CancelDeferred

theorem Live.disarmTimer_update (hl : e.Linked) (hv : e.Live) {f : RuleState → RuleState}
    (hf : (f (e.states.stateOf ref)).timer = e.timerOf ref) :
    (disarmTimer { e with states := e.states.update ref f } ref).Live := by
  intro h r k epoch hj hp
  obtain ⟨hne, hj⟩ := job?_of_disarmTimer hj
  rw [timerOf_update, if_pos rfl, hf] at hne
  have hk : k ≠ ref := by
    rintro rfl
    have hfits := hl.fits h r hj
    simp only [Fits, hp] at hfits
    obtain ⟨_, _, _, _, _, htimer⟩ := hfits
    exact hne htimer
  refine (hv h r k epoch hj hp).congr rfl ?_
  rw [stateOf_disarmTimer, if_neg hk, RuleStates.stateOf_update_of_ne _ _ hk]

section SetEnabled

def flag (e : Engine) (ref : RuleRef) (enabled : Bool) : Engine :=
  { e with states := e.states.update ref fun s => { s with enabledOverride := some enabled } }

def switchedOn (e : Engine) (ref : RuleRef) (epoch : Nat) (r : Rule) (now : Instant) : Engine :=
  if r.event = .timer then (e.flag ref true).armTimer ref.scope epoch r now else e.flag ref true

def switchedOff (e : Engine) (ref : RuleRef) (r : Rule) : Engine :=
  (if r.event = .timer then (e.flag ref false).disarmTimer ref else e.flag ref false).cancelDeferred
    (· == ref)

theorem target_eq_ok_iff {t : Nat × Rule} : e.target ref = .ok t ↔ e.target? ref = some t := by
  unfold target
  cases ht : e.target? ref with
  | none => split <;> simp
  | some s =>
    have hc : e.catalog.contains ref.scope :=
      Catalog.contains_of_rule? (target?_eq_some_iff.mp (show _ = some (s.1, s.2) from ht)).2
    simp [hc]

theorem setEnabled_of_target? {epoch : Nat} {r : Rule} (ht : e.target? ref = some (epoch, r))
    (enabled : Bool) (now : Instant) :
    e.setEnabled ref enabled now = .ok (.controlChanged ref.scope ref.rule enabled,
      if enabled then e.switchedOn ref epoch r now else e.switchedOff ref r) := by
  unfold setEnabled
  rw [target_eq_ok_iff.mpr ht]
  cases enabled <;> rfl

theorem setEnabled_eq_ok {enabled : Bool} {notice : Notice} {e' : Engine}
    (h : e.setEnabled ref enabled now = .ok (notice, e')) :
    ∃ epoch r, e.target? ref = some (epoch, r) ∧
      e' = if enabled then e.switchedOn ref epoch r now else e.switchedOff ref r := by
  cases ht : e.target? ref with
  | none =>
    unfold setEnabled at h
    cases htarget : e.target ref with
    | error err =>
      rw [htarget] at h
      cases h
    | ok t => simp [target_eq_ok_iff.mp htarget] at ht
  | some t =>
    obtain ⟨epoch, r⟩ := t
    rw [setEnabled_of_target? ht] at h
    cases h
    exact ⟨epoch, r, rfl, rfl⟩

theorem timerOf_flag (e : Engine) (ref : RuleRef) (enabled : Bool) (k : RuleRef) :
    (e.flag ref enabled).timerOf k = e.timerOf k := by
  unfold flag
  rw [timerOf_update]
  split
  · subst k
    rfl
  · rfl

theorem Linked.flag (hl : e.Linked) (hr : (e.catalog.rule? ref).isSome) (enabled : Bool) :
    (e.flag ref enabled).Linked := hl.update hr rfl

theorem Live.flag_on (hv : e.Live) (ref : RuleRef) : (e.flag ref true).Live := by
  refine hv.mono fun h q k _ hj hp => ⟨⟨q, hj, hp⟩, ?_⟩
  rintro ⟨rule, hr, ht, hen, hex⟩
  refine ⟨rule, hr, ht, ?_⟩
  unfold Engine.flag
  rw [RuleStates.stateOf_update]
  split
  · subst k
    exact ⟨rfl, hex⟩
  · exact ⟨hen, hex⟩

theorem Live.flag_of_event {epoch : Nat} {r : Rule} (hv : e.Live)
    (ht : e.target? ref = some (epoch, r)) (hne : r.event ≠ .timer) (enabled : Bool) :
    (e.flag ref enabled).Live := by
  refine hv.mono fun h q k _ hj hp => ⟨⟨q, hj, hp⟩, ?_⟩
  rintro ⟨rule, hr, htimer, hrest⟩
  have hk : k ≠ ref := by
    rintro rfl
    rw [(target?_eq_some_iff.mp ht).2] at hr
    exact hne (Option.some.inj hr ▸ htimer)
  exact WantsTimer.congr ⟨rule, hr, htimer, hrest⟩ rfl (RuleStates.stateOf_update_of_ne _ _ hk)

theorem job?_of_setEnabled {enabled : Bool} {notice : Notice} {e' : Engine} {h : Handle}
    {q : Registration Job} (hset : e.setEnabled ref enabled now = .ok (notice, e'))
    (hq : e'.job? h = some q) :
    e.job? h = some q ∨ enabled = true ∧ ∃ epoch r plan, e.target? ref = some (epoch, r) ∧
      r.timerPlan? = some plan ∧ now.after? plan.initial = some q.due ∧
      q.payload = .ruleTimer ref epoch := by
  obtain ⟨epoch, r, ht, rfl⟩ := setEnabled_eq_ok hset
  cases enabled with
  | true =>
    rw [if_pos rfl, switchedOn] at hq
    split at hq
    · rcases job?_of_armTimer hq with hq | ⟨hp, plan, hplan, hdue⟩
      · exact .inl hq
      · rw [Catalog.id_of_rule? (target?_eq_some_iff.mp ht).2] at hp
        exact .inr ⟨rfl, epoch, r, plan, ht, hplan, hdue, hp⟩
    · exact .inl hq
  | false =>
    rw [if_neg (by simp), switchedOff] at hq
    have hq := (job?_of_cancelDeferred hq).2
    split at hq
    · exact .inl (job?_of_disarmTimer hq).2
    · exact .inl hq

theorem Linked.setEnabled {enabled : Bool} {notice : Notice} {e' : Engine} (hl : e.Linked)
    (h : e.setEnabled ref enabled now = .ok (notice, e')) : e'.Linked := by
  obtain ⟨epoch, r, ht, rfl⟩ := setEnabled_eq_ok h
  have hr := isSome_of_target? ht
  have hid := Catalog.id_of_rule? (target?_eq_some_iff.mp ht).2
  cases enabled with
  | true =>
    unfold switchedOn
    rw [if_pos rfl]
    split
    · exact (hl.flag hr true).armTimer (by rw [hid]; exact ht) now
    · exact hl.flag hr true
  | false =>
    unfold switchedOff
    rw [if_neg (by simp)]
    refine Linked.cancelDeferred ?_ _
    split
    · exact (hl.flag hr false).disarmTimer hr
    · exact hl.flag hr false

theorem Live.setEnabled {enabled : Bool} {notice : Notice} {e' : Engine} (hl : e.Linked)
    (hv : e.Live) (h : e.setEnabled ref enabled now = .ok (notice, e')) : e'.Live := by
  obtain ⟨epoch, r, ht, rfl⟩ := setEnabled_eq_ok h
  have hid := Catalog.id_of_rule? (target?_eq_some_iff.mp ht).2
  cases enabled with
  | true =>
    unfold switchedOn
    rw [if_pos rfl]
    split
    · exact (hv.flag_on ref).armTimer (by rw [hid]; exact ht) now
    · exact hv.flag_on ref
  | false =>
    unfold switchedOff
    rw [if_neg (by simp)]
    refine Live.cancelDeferred ?_ _
    split
    · exact Live.disarmTimer_update hl hv rfl
    · exact hv.flag_of_event ht ‹_› false

end SetEnabled

end WorldTriggers.Engine
