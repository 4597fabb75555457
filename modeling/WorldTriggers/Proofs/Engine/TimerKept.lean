import WorldTriggers.Proofs.Engine.Operation

namespace WorldTriggers

namespace Engine

variable {e e' : Engine} {ref : RuleRef} {now : Instant}

def Held (e : Engine) (ref : RuleRef) : Prop :=
  ∀ h, e.timerOf ref = some h → ∃ r epoch, e.job? h = some r ∧ r.payload = .ruleTimer ref epoch

/-- The timer of a rule is pending when it is wanted, and known to be pending only when it is. -/
structure TimerKept (e : Engine) (ref : RuleRef) : Prop where
  running : e.WantsTimer ref → (e.timerOf ref).isSome
  held : e.Held ref

def PlanIs (e : Engine) (ref : RuleRef) (p : Rule.TimerPlan → Prop) : Prop :=
  ∀ rule plan, e.catalog.rule? ref = some rule → rule.timerPlan? = some plan → p plan

instance (e : Engine) (ref : RuleRef) (p : Rule.TimerPlan → Prop) [DecidablePred p] :
    Decidable (e.PlanIs ref p) :=
  decidable_of_iff ((e.catalog.rule? ref).all fun r => r.timerPlan?.all fun plan => decide (p plan)) (by
    simp only [PlanIs, Option.all_eq_true, decide_eq_true_eq]
    exact ⟨fun h rule plan hr => h rule hr plan, fun h rule hr plan => h rule plan hr⟩)

theorem PlanIs.congr {p : Rule.TimerPlan → Prop} (h : e.PlanIs ref p)
    (hcat : e'.catalog.rule? ref = e.catalog.rule? ref) : e'.PlanIs ref p := by
  intro rule plan hr
  rw [hcat] at hr
  exact h rule plan hr

abbrev Recurs (e : Engine) (ref : RuleRef) : Prop := e.PlanIs ref fun plan => 0 < plan.interval

abbrev Starts (e : Engine) (ref : RuleRef) (now : Instant) : Prop :=
  e.PlanIs ref fun plan => (now.after? plan.initial).isSome

abbrev Returns (e : Engine) (ref : RuleRef) (now : Instant) : Prop :=
  e.PlanIs ref fun plan => (now.after? plan.interval).isSome

section Frame

theorem TimerKept.frame (hk : e.TimerKept ref) (htimer : e'.timerOf ref = e.timerOf ref)
    (hwants : e'.WantsTimer ref → e.WantsTimer ref)
    (hjobs : ∀ h r, e.timerOf ref = some h → e.job? h = some r →
      ∃ q, e'.job? h = some q ∧ q.payload = r.payload) : e'.TimerKept ref where
  running hw := htimer ▸ hk.running (hwants hw)
  held h hh := by
    rw [htimer] at hh
    obtain ⟨r, epoch, hr, hp⟩ := hk.held h hh
    obtain ⟨q, hq, hpq⟩ := hjobs h r hh hr
    exact ⟨q, epoch, hq, hpq.trans hp⟩

theorem timerKept_of_none (htimer : e.timerOf ref = none) (hwants : ¬e.WantsTimer ref) :
    e.TimerKept ref where
  running hw := absurd hw hwants
  held h hh := by
    rw [htimer] at hh
    cases hh

theorem Linked.eq_of_timerOf (hl : e.Linked) {k : RuleRef} {h : Handle} {r : Registration Job}
    (hk : e.timerOf k = some h) (href : e.timerOf ref = some h) (hr : e.job? h = some r) : k = ref := by
  obtain ⟨_, hp⟩ := (hl.timers k h hk).2 r hr
  obtain ⟨_, hp'⟩ := (hl.timers ref h href).2 r hr
  exact (Job.ruleTimer.inj (hp.symm.trans hp')).1

end Frame

section States

variable {k : RuleRef} {f : RuleState → RuleState}

theorem TimerKept.update_of_ne (hk : e.TimerKept ref) (h : ref ≠ k) :
    TimerKept { e with states := e.states.update k f } ref := by
  refine hk.frame (by rw [timerOf_update, if_neg h]) (fun hw => hw.congr rfl ?_) fun _ r _ hr =>
    ⟨r, hr, rfl⟩
  exact (RuleStates.stateOf_update_of_ne _ _ h).symm

theorem TimerKept.update_self (hk : e.TimerKept ref)
    (hf : (f (e.states.stateOf ref)).timer = e.timerOf ref)
    (hwants : WantsTimer { e with states := e.states.update ref f } ref → e.WantsTimer ref) :
    TimerKept { e with states := e.states.update ref f } ref :=
  hk.frame (by rw [timerOf_update, if_pos rfl, hf]) hwants fun _ r _ hr => ⟨r, hr, rfl⟩

theorem TimerKept.disarmTimer_of_ne (hl : e.Linked) (hk : e.TimerKept ref) (h : ref ≠ k) :
    (e.disarmTimer k).TimerKept ref := by
  refine hk.frame (by rw [timerOf_disarmTimer, if_neg h]) (fun hw => hw.congr rfl ?_) ?_
  · rw [stateOf_disarmTimer, if_neg h]
  · intro j r hj hr
    refine ⟨r, ?_, rfl⟩
    rw [job?_disarmTimer, if_neg, hr]
    intro hkj
    exact h (hl.eq_of_timerOf hkj hj hr).symm

theorem timerKept_disarmTimer (hwants : ¬(e.disarmTimer ref).WantsTimer ref) :
    (e.disarmTimer ref).TimerKept ref :=
  timerKept_of_none (by rw [timerOf_disarmTimer, if_pos rfl]) hwants

theorem Linked.job?_cancelDeferred_of_timerOf {h : Handle} {r : Registration Job} (hl : e.Linked)
    (ht : e.timerOf ref = some h) (hr : e.job? h = some r) (p : RuleRef → Bool) :
    (e.cancelDeferred p).job? h = some r := by
  rw [job?_cancelDeferred]
  cases hd : e.deferred.get? h with
  | none => exact hr
  | some k =>
    obtain ⟨q, c, hq, hp, -⟩ := hl.deferred h k hd
    obtain ⟨_, hp'⟩ := (hl.timers ref h ht).2 q hq
    simp [hp] at hp'

theorem TimerKept.cancelDeferred (hl : e.Linked) (hk : e.TimerKept ref) (p : RuleRef → Bool) :
    (e.cancelDeferred p).TimerKept ref :=
  hk.frame rfl id fun _ r ht hr => ⟨r, hl.job?_cancelDeferred_of_timerOf ht hr p, rfl⟩

theorem TimerKept.register {due : Instant} {interval : Option Span} {payload : Job}
    (hl : e.Linked) (hk : e.TimerKept ref)
    (hschedule : e'.schedule = (e.schedule.register due interval payload).2)
    (htimer : e'.timerOf ref = e.timerOf ref) (hwants : e'.WantsTimer ref → e.WantsTimer ref) :
    e'.TimerKept ref := by
  refine hk.frame htimer hwants fun h r _ hr => ⟨r, ?_, rfl⟩
  rw [job?, hschedule, Schedule.job?_register, if_neg (Nat.ne_of_lt (hl.issued h r hr).1)]
  exact hr

end States

section ArmTimer

variable {scope : Scope} {epoch : Nat} {r : Rule}

theorem timerOf_armTimer_of_ne (h : ref ≠ ⟨scope, r.id⟩) (epoch : Nat) (now : Instant) :
    (e.armTimer scope epoch r now).timerOf ref = e.timerOf ref := by
  cases hplan : r.timerPlan? with
  | none => rw [armTimer_of_no_plan hplan]
  | some plan =>
    rcases armTimer_eq hplan e scope epoch now with ⟨-, he⟩ | ⟨due, -, -, he⟩
    · rw [he, timerOf_touch]
    · rw [he, timerOf_startTimer, if_neg h, timerOf_touch]

theorem Linked.job?_armTimer {h : Handle} {q : Registration Job} (hl : e.Linked)
    (hq : e.job? h = some q) : (e.armTimer scope epoch r now).job? h = some q := by
  cases hplan : r.timerPlan? with
  | none => rwa [armTimer_of_no_plan hplan]
  | some plan =>
    rcases armTimer_eq hplan e scope epoch now with ⟨-, he⟩ | ⟨due, -, -, he⟩
    · rwa [he]
    · have hne := Nat.ne_of_lt (hl.issued h q hq).1
      rw [he]
      exact ((Schedule.job?_register ..).trans (if_neg hne)).trans hq

theorem wantsTimer_armTimer {k : RuleRef} :
    (e.armTimer scope epoch r now).WantsTimer k ↔ e.WantsTimer k := by
  cases hplan : r.timerPlan? with
  | none => rw [armTimer_of_no_plan hplan]
  | some plan =>
    rcases armTimer_eq hplan e scope epoch now with ⟨-, he⟩ | ⟨due, -, -, he⟩
    · rw [he, wantsTimer_touch]
    · rw [he, wantsTimer_startTimer, wantsTimer_touch]

theorem Held.armTimer_of_ne (hl : e.Linked) (hh : e.Held ref) (h : ref ≠ ⟨scope, r.id⟩) :
    (e.armTimer scope epoch r now).Held ref := by
  intro k hk
  rw [timerOf_armTimer_of_ne h] at hk
  obtain ⟨q, epoch', hq, hp⟩ := hh k hk
  exact ⟨q, epoch', hl.job?_armTimer hq, hp⟩

theorem Held.armTimer (hl : e.Linked) (hh : e.Held ref) (href : ref = ⟨scope, r.id⟩)
    (ht : e.target? ref = some (epoch, r)) (hstarts : e.Starts ref now) :
    (e.armTimer scope epoch r now).TimerKept ref := by
  have hrule := (target?_eq_some_iff.mp ht).2
  cases hplan : r.timerPlan? with
  | none =>
    rw [armTimer_of_no_plan hplan]
    refine ⟨?_, hh⟩
    rintro ⟨rule, hr, htimer, -⟩
    obtain rfl : r = rule := Option.some.inj (hrule.symm.trans hr)
    have hsome := Rule.timerPlan?_isSome_of_validate (hl.catalog.valid hrule) htimer
    simp [hplan] at hsome
  | some plan =>
    rcases armTimer_eq hplan e scope epoch now with ⟨hlacks, he⟩ | ⟨due, hlacks, hdue, he⟩
    · rw [he, ← href]
      rw [← href] at hlacks
      have hheld : (e.touch ref).Held ref := fun h hk => hh h (by rwa [timerOf_touch] at hk)
      refine ⟨?_, hheld⟩
      rintro ⟨rule, hr, -, hen, hex⟩
      obtain rfl : r = rule := Option.some.inj (hrule.symm.trans hr)
      -- Its first firing is within bounds, so the timer was not started only if it is pending.
      have hn : ¬(e.touch ref).lacksTimer ref r := by
        rcases hlacks with hn | hnone
        · exact hn
        · simpa [hnone] using hstarts r plan hrule hplan
      have hpending : ((e.touch ref).timerOf ref).any (e.touch ref).schedule.isPending = true := by
        by_contra hp
        exact hn ⟨Bool.eq_false_of_not_eq_true hp, hen, hex⟩
      exact Option.isSome_of_any hpending
    · rw [he, ← href]
      have htimer : ((e.touch ref).startTimer ref epoch plan.interval due).timerOf ref =
          some (e.touch ref).schedule.nextHandle := by
        rw [timerOf_startTimer, if_pos rfl]
      refine ⟨fun _ => by rw [htimer]; rfl, fun h hk => ?_⟩
      obtain rfl := Option.some.inj (htimer.symm.trans hk)
      exact ⟨_, epoch, (Schedule.job?_register ..).trans (if_pos rfl), rfl⟩

theorem TimerKept.armTimer (hl : e.Linked) (hk : e.TimerKept ref)
    (ht : e.target? ⟨scope, r.id⟩ = some (epoch, r)) (hstarts : e.Starts ref now) :
    (e.armTimer scope epoch r now).TimerKept ref := by
  by_cases href : ref = ⟨scope, r.id⟩
  · exact hk.held.armTimer hl href (by rwa [href]) hstarts
  · refine ⟨fun hw => ?_, hk.held.armTimer_of_ne hl href⟩
    rw [timerOf_armTimer_of_ne href]
    exact hk.running (wantsTimer_armTimer.mp hw)

end ArmTimer

section Switching

variable {k : RuleRef}

theorem TimerKept.setEnabled {enabled : Bool} {notice : Notice} (hl : e.Linked)
    (hk : e.TimerKept ref) (hstarts : e.Starts ref now)
    (h : e.setEnabled k enabled now = .ok (notice, e')) : e'.TimerKept ref := by
  obtain ⟨epoch, r, ht, rfl⟩ := setEnabled_eq_ok h
  have hrule := (target?_eq_some_iff.mp ht).2
  have hid : (⟨k.scope, r.id⟩ : RuleRef) = k := by rw [Catalog.id_of_rule? hrule]
  have hflag := hl.flag (isSome_of_target? ht) enabled
  have hother (hne : ref ≠ k) : (e.flag k enabled).TimerKept ref := hk.update_of_ne hne
  have hheld : (e.flag k enabled).Held ref := by
    intro h hh
    rw [timerOf_flag] at hh
    exact hk.held h hh
  have hevent {e' : Engine} (hcat : e'.catalog = e.catalog) (hne : r.event ≠ .timer) :
      ¬e'.WantsTimer k := by
    rintro ⟨rule, hr, htimer, -⟩
    rw [hcat, hrule] at hr
    exact hne (Option.some.inj hr ▸ htimer)
  cases enabled with
  | true =>
    rw [if_pos rfl, switchedOn]
    by_cases href : ref = k
    · subst k
      split
      · exact hheld.armTimer hflag hid.symm ht (hstarts.congr rfl)
      · exact ⟨fun hw => absurd hw (hevent rfl ‹_›), hheld⟩
    · split
      · exact (hother href).armTimer hflag (by rw [hid]; exact ht) (hstarts.congr rfl)
      · exact hother href
  | false =>
    rw [if_neg (by simp), switchedOff]
    have hoff : ¬(e.flag k false).WantsTimer k := by
      rintro ⟨rule, -, -, hen, -⟩
      rw [Engine.flag, RuleStates.stateOf_update_self] at hen
      cases hen
    by_cases href : ref = k
    · subst k
      split
      · refine TimerKept.cancelDeferred (hflag.disarmTimer (isSome_of_target? ht)) ?_ _
        refine timerKept_disarmTimer ?_
        rintro ⟨rule, -, -, hen, -⟩
        rw [stateOf_disarmTimer, if_pos rfl, Engine.flag, RuleStates.stateOf_update_self] at hen
        cases hen
      · exact TimerKept.cancelDeferred hflag ⟨fun hw => absurd hw hoff, hheld⟩ _
    · split
      · exact ((hother href).disarmTimer_of_ne hflag href).cancelDeferred
          (hflag.disarmTimer (isSome_of_target? ht)) _
      · exact (hother href).cancelDeferred hflag _

end Switching

section Firing

theorem TimerKept.recordFiring {f : Firing} (hl : e.Linked) (hk : e.TimerKept ref)
    (hf : e.Installed f) : (e.recordFiring f now).TimerKept ref := by
  have hrule := (target?_eq_some_iff.mp hf).2
  unfold Engine.recordFiring
  dsimp only
  by_cases href : ref = f.ref
  · subst ref
    split
    · rename_i hdone
      rw [Bool.and_eq_true] at hdone
      refine timerKept_disarmTimer ?_
      rintro ⟨rule, hr, -, -, hex⟩
      obtain rfl : f.rule = rule := Option.some.inj (hrule.symm.trans hr)
      -- The timer stops only when the firings are used up, and then none is wanted.
      rw [stateOf_disarmTimer, if_pos rfl] at hex
      exact absurd hdone.2 (by simpa [RuleState.isExhausted] using hex)
    · refine hk.update_self rfl ?_
      rintro ⟨rule, hr, ht, hen, hex⟩
      rw [RuleStates.stateOf_update_self] at hen hex
      refine ⟨rule, hr, ht, hen, ?_⟩
      by_contra hne
      rw [RuleState.isExhausted_recordFiring (Bool.eq_true_of_not_eq_false hne)] at hex
      cases hex
  · split
    · exact (hk.update_of_ne href).disarmTimer_of_ne (hl.update (isSome_of_target? hf) rfl) href
    · exact hk.update_of_ne href

theorem TimerKept.step (hl : e.Linked) (hk : e.TimerKept ref) (hstarts : e.Starts ref now)
    (h : Step now e e') : e'.TimerKept ref := by
  cases h with
  | record hf => exact hk.recordFiring hl hf
  | switch h => exact hk.setEnabled hl hstarts h
  | expire => exact hk.register hl rfl rfl fun hw => hw.congr rfl rfl
  | putOff => exact hk.register hl rfl rfl fun hw => hw.congr rfl rfl

theorem TimerKept.steps (hl : e.Linked) (hk : e.TimerKept ref) (hstarts : e.Starts ref now)
    (h : Steps now e e') : e'.TimerKept ref := by
  induction h with
  | refl => exact hk
  | tail hs h ih => exact ih.step (hl.steps hs) (hstarts.congr (by rw [Steps.catalog hs])) h

end Firing

section Advance

theorem nextTime?_isSome {h : Handle} {r : Registration Job} {epoch : Nat} (hl : e.Linked)
    (hr : e.job? h = some r) (hp : r.payload = .ruleTimer ref epoch) (hdue : r.due ≤ now)
    (hreturns : e.Returns ref now) : (Schedule.nextTime? r now).isSome ↔ e.Recurs ref := by
  have hfits := hl.fits h r hr
  simp only [Fits, hp] at hfits
  obtain ⟨rule, plan, ht, hplan, hinterval, -⟩ := hfits
  have hrule := (target?_eq_some_iff.mp ht).2
  have hrecurs : e.Recurs ref ↔ 0 < plan.interval := by
    refine ⟨fun h => h rule plan hrule hplan, fun h rule' plan' hrule' hplan' => ?_⟩
    obtain rfl := Option.some.inj (hrule.symm.trans hrule')
    obtain rfl := Option.some.inj (hplan.symm.trans hplan')
    exact h
  rw [hrecurs]
  unfold Schedule.nextTime?
  rw [hinterval]
  by_cases hpos : 0 < plan.interval
  · obtain ⟨next, hnext⟩ := Option.isSome_iff_exists.mp (hreturns rule plan hrule hplan)
    obtain ⟨rfl, -, hlast⟩ := Instant.after?_eq_some_iff.mp hnext
    simpa [hpos] using Schedule.nextDue?_isSome hpos hdue (hl.issued h r hr).2 hlast
  · simp [hpos]

theorem TimerKept.taken_iff {h : Handle} {r : Registration Job} {epoch : Nat} (hl : e.Linked)
    (hk : e.TimerKept ref) (hr : e.job? h = some r) (hp : r.payload = .ruleTimer ref epoch)
    (hdue : r.due ≤ now) (hreturns : e.Returns ref now) :
    (e.taken h r now).TimerKept ref ↔ e.Recurs ref := by
  have hfits := hl.fits h r hr
  simp only [Fits, hp] at hfits
  obtain ⟨_, _, -, -, -, htimer⟩ := hfits
  rw [← nextTime?_isSome hl hr hp hdue hreturns]
  constructor
  · intro hkept
    obtain ⟨q, _, hq, -⟩ := hkept.held h (by rw [timerOf_taken, htimer])
    rw [job?_taken, if_pos rfl] at hq
    simpa using Option.isSome_of_eq_some hq
  · intro hnext
    obtain ⟨due, hnext⟩ := Option.isSome_iff_exists.mp hnext
    refine hk.frame (timerOf_taken ..) (fun hw => hw.congr (by simp) (by simp)) fun j q hj hq => ?_
    obtain rfl := Option.some.inj (htimer.symm.trans hj)
    obtain rfl := Option.some.inj (hr.symm.trans hq)
    exact ⟨{ r with due := due, turn := e.schedule.nextTurn },
      by rw [job?_taken, if_pos rfl, hnext]; rfl, rfl⟩

theorem TimerKept.taken {h : Handle} {r : Registration Job} (hl : e.Linked)
    (hk : e.TimerKept ref) (hr : e.job? h = some r) (hdue : r.due ≤ now)
    (hreturns : e.Returns ref now) (hrecurs : e.Recurs ref) : (e.taken h r now).TimerKept ref := by
  by_cases htimer : e.timerOf ref = some h
  · obtain ⟨q, epoch, hq, hp⟩ := hk.held h htimer
    obtain rfl := Option.some.inj (hr.symm.trans hq)
    exact (hk.taken_iff hl hr hp hdue hreturns).mpr hrecurs
  · refine hk.frame (timerOf_taken ..) (fun hw => hw.congr (by simp) (by simp)) fun j q hj hq => ?_
    refine ⟨q, ?_, rfl⟩
    rw [job?_taken, if_neg, hq]
    rintro rfl
    exact htimer hj

theorem TimerKept.runNext? {w w' : World} {notices : List Notice} (hl : e.Linked)
    (hk : e.TimerKept ref) (hstarts : e.Starts ref now) (hreturns : e.Returns ref now)
    (hrecurs : e.Recurs ref) (h : e.runNext? w now = some (notices, e', w')) :
    e'.TimerKept ref ∧ e'.catalog = e.catalog := by
  obtain ⟨k, r, hr, hdue, hs⟩ := runNext?_steps hl h
  refine ⟨(hk.taken hl hr hdue hreturns hrecurs).steps (hl.taken hr now) ?_ hs, ?_⟩
  · exact hstarts.congr (by rw [catalog_taken])
  · rw [hs.catalog, catalog_taken]

end Advance

end Engine

end WorldTriggers
