import WorldTriggers.Proofs.Engine.ImmediateJobs

namespace WorldTriggers.Engine

variable {e e' : Engine} {ref : RuleRef} {epoch : Nat} {r : Rule} {now : Instant}

def HasTimer (e : Engine) (ref : RuleRef) : Prop :=
  ∃ h q epoch, e.job? h = some q ∧ q.payload = .ruleTimer ref epoch

theorem Linked.hasTimer_iff (hl : e.Linked) :
    e.HasTimer ref ↔ (e.timerOf ref).any e.schedule.isPending = true := by
  constructor
  · rintro ⟨h, q, epoch, hq, hp⟩
    have hfits := hl.fits h q hq
    simp only [Fits, hp] at hfits
    obtain ⟨_, _, _, _, _, htimer⟩ := hfits
    rw [htimer, Option.any_some, Schedule.isPending_eq]
    exact Option.isSome_iff_exists.mpr ⟨q, hq⟩
  · intro hany
    obtain ⟨h, htimer, hpending⟩ := (Option.any_eq_true ..).mp hany
    rw [Schedule.isPending_eq] at hpending
    obtain ⟨q, hq⟩ := Option.isSome_iff_exists.mp hpending
    obtain ⟨epoch, hp⟩ := (hl.timers ref h htimer).2 q hq
    exact ⟨h, q, epoch, hq, hp⟩

/-- Two engines that differ in nothing but what is of one rule. -/
structure Apart (ref : RuleRef) (e e' : Engine) : Prop where
  settings : e'.settings = e.settings
  catalog : e'.catalog = e.catalog
  waiting : e'.waiting = e.waiting
  states : ∀ k, k ≠ ref → e'.states.get? k = e.states.get? k
  jobs : ∀ h q, q.payload.ref? ≠ some ref → (e'.job? h = some q ↔ e.job? h = some q)

structure TurnsOff (ref : RuleRef) (r : Rule) (e e' : Engine) : Prop extends Apart ref e e' where
  nextHandle : e'.schedule.nextHandle = e.schedule.nextHandle
  nextTurn : e'.schedule.nextTurn = e.schedule.nextTurn
  job? : ∀ h, e'.job? h = (e.job? h).filter fun q => q.payload.ref? ≠ some ref
  deferred : ∀ h, e'.deferred.get? h = (e.deferred.get? h).filter (· ≠ ref)
  state : e'.states.get? ref = some { e.states.stateOf ref with
    enabledOverride := some false
    timer := if r.event = .timer then none else e.timerOf ref }

def CanStart (e : Engine) (ref : RuleRef) (r : Rule) : Prop :=
  ¬e.HasTimer ref ∧ (e.states.stateOf ref).isExhausted r.fireLimit? = false

structure TurnsOn (ref : RuleRef) (epoch : Nat) (r : Rule) (now : Instant) (e e' : Engine) : Prop
    extends Apart ref e e' where
  deferred : e'.deferred = e.deferred
  started : ∀ plan due, r.timerPlan? = some plan → now.after? plan.initial = some due →
    e.CanStart ref r →
      e'.schedule = (e.schedule.every due plan.interval (.ruleTimer ref epoch)).2 ∧
      e'.states.get? ref = some { e.states.stateOf ref with
        enabledOverride := some true
        timer := some e.schedule.nextHandle }
  unstarted : (∀ plan due, r.timerPlan? = some plan → now.after? plan.initial = some due →
    ¬e.CanStart ref r) →
      e'.schedule = e.schedule ∧
      e'.states.get? ref = some { e.states.stateOf ref with enabledOverride := some true }

section Off

def stopped (e : Engine) (ref : RuleRef) (r : Rule) : Engine :=
  if r.event = .timer then (e.flag ref false).disarmTimer ref else e.flag ref false

theorem switchedOff_eq (e : Engine) (ref : RuleRef) (r : Rule) :
    e.switchedOff ref r = (e.stopped ref r).cancelDeferred (· == ref) := rfl

theorem apart_stopped (e : Engine) (ref : RuleRef) (r : Rule) :
    (e.stopped ref r).settings = e.settings ∧ (e.stopped ref r).catalog = e.catalog ∧
      (e.stopped ref r).waiting = e.waiting ∧ (e.stopped ref r).deferred = e.deferred := by
  unfold stopped
  split <;> exact ⟨rfl, rfl, rfl, rfl⟩

theorem next_stopped (e : Engine) (ref : RuleRef) (r : Rule) :
    (e.stopped ref r).schedule.nextHandle = e.schedule.nextHandle ∧
      (e.stopped ref r).schedule.nextTurn = e.schedule.nextTurn := by
  unfold stopped disarmTimer
  split
  · dsimp only
    split <;> exact ⟨rfl, rfl⟩
  · exact ⟨rfl, rfl⟩

theorem job?_stopped (e : Engine) (ref : RuleRef) (r : Rule) (h : Handle) :
    (e.stopped ref r).job? h =
      if r.event = .timer ∧ e.timerOf ref = some h then none else e.job? h := by
  unfold stopped
  by_cases hevent : r.event = .timer
  · rw [if_pos hevent, job?_disarmTimer, timerOf_flag]
    simp only [hevent, true_and]
    rfl
  · rw [if_neg hevent, if_neg (fun hand => hevent hand.1)]
    rfl

theorem get?_states_stopped (e : Engine) (ref : RuleRef) (r : Rule) (k : RuleRef) :
    (e.stopped ref r).states.get? k =
      if k = ref then some { e.states.stateOf ref with
        enabledOverride := some false
        timer := if r.event = .timer then none else e.timerOf ref }
      else e.states.get? k := by
  unfold stopped
  by_cases hevent : r.event = .timer
  · simp only [hevent, if_true, disarmTimer, flag, RuleStates.get?_update,
      RuleStates.stateOf_update_self]
    split <;> rfl
  · rw [if_neg hevent]
    simp only [hevent, if_false]
    exact RuleStates.get?_update ..

theorem Linked.ref?_eq_some_iff (hl : e.Linked) (ht : e.target? ref = some (epoch, r)) {h : Handle}
    {q : Registration Job} (hq : e.job? h = some q) :
    q.payload.ref? = some ref ↔
      (e.deferred.get? h).any (· == ref) ∨ r.event = .timer ∧ e.timerOf ref = some h := by
  have hfits := hl.fits h q hq
  constructor
  · intro href
    cases hp : q.payload with
    | ruleTimer k epoch' =>
      simp only [Fits, hp] at hfits
      obtain ⟨rule, plan, hk, hplan, -, htimer⟩ := hfits
      obtain rfl : k = ref := by simpa [hp, Job.ref?] using href
      obtain ⟨-, rfl⟩ := Prod.mk.inj (Option.some.inj (ht.symm.trans hk))
      exact .inr ⟨event_of_timerPlan? hplan, htimer⟩
    | continuation c =>
      simp only [Fits, hp] at hfits
      obtain ⟨-, -, -, hd⟩ := hfits
      obtain rfl : c.firing.ref = ref := by simpa [hp, Job.ref?] using href
      exact .inl (by simp [hd])
    | expireEffect => simp [hp, Job.ref?] at href
  · rintro (hany | ⟨-, htimer⟩)
    · obtain ⟨k, hd, hk⟩ := (Option.any_eq_true ..).mp hany
      obtain rfl : k = ref := by simpa using hk
      obtain ⟨q', c, hq', hp, hc⟩ := hl.deferred h k hd
      obtain rfl := Option.some.inj (hq.symm.trans hq')
      rw [hp, Job.ref?, hc]
    · obtain ⟨epoch', hp⟩ := (hl.timers ref h htimer).2 q hq
      rw [hp, Job.ref?]

theorem Linked.job?_switchedOff (hl : e.Linked) (ht : e.target? ref = some (epoch, r)) (h : Handle) :
    (e.switchedOff ref r).job? h = (e.job? h).filter fun q => q.payload.ref? ≠ some ref := by
  obtain ⟨-, -, -, hdeferred⟩ := apart_stopped e ref r
  rw [switchedOff_eq, job?_cancelDeferred, hdeferred, job?_stopped]
  cases hq : e.job? h with
  | none => simp
  | some q =>
    have hiff := hl.ref?_eq_some_iff ht hq
    by_cases href : q.payload.ref? = some ref
    · rcases hiff.mp href with hany | htimer
      · simp [hany, href, Option.filter_some]
      · simp [htimer, href, Option.filter_some]
    · obtain ⟨hany, htimer⟩ := not_or.mp (mt hiff.mpr href)
      rw [if_neg hany, if_neg htimer]
      simp [href, Option.filter_some]

theorem Linked.turnsOff (hl : e.Linked) (ht : e.target? ref = some (epoch, r)) :
    TurnsOff ref r e (e.switchedOff ref r) := by
  obtain ⟨hsettings, hcatalog, hwaiting, hdeferred⟩ := apart_stopped e ref r
  obtain ⟨hhandle, hturn⟩ := next_stopped e ref r
  have hstates := get?_states_stopped e ref r
  constructor
  · constructor
    case settings => exact hsettings
    case catalog => exact hcatalog
    case waiting => exact hwaiting
    case states =>
      intro k hk
      exact (hstates k).trans (if_neg hk)
    case jobs =>
      intro h q hq
      rw [hl.job?_switchedOff ht, Option.filter_eq_some_iff]
      simp [hq]
  case nextHandle => exact hhandle
  case nextTurn => exact hturn
  case job? => exact hl.job?_switchedOff ht
  case deferred =>
    intro h
    rw [switchedOff_eq, get?_cancelDeferred, hdeferred]
    congr 1
    funext k
    simp [beq_eq_decide]
  case state => exact (hstates ref).trans (if_pos rfl)

end Off

section On

theorem lacksTimer_flag_iff (hl : e.Linked) :
    (e.flag ref true).lacksTimer ref r ↔ e.CanStart ref r := by
  have hstate : (e.flag ref true).states.stateOf ref =
      { e.states.stateOf ref with enabledOverride := some true } :=
    RuleStates.stateOf_update_self ..
  unfold lacksTimer CanStart
  rw [timerOf_flag, hstate, hl.hasTimer_iff, Bool.not_eq_true]
  exact and_congr_right' (and_iff_right rfl)

theorem touch_flag (e : Engine) (ref : RuleRef) (enabled : Bool) :
    (e.flag ref enabled).touch ref = e.flag ref enabled := by
  unfold touch flag
  congr 1
  refine SortedMap.ext_get? fun k => ?_
  simp only [RuleStates.get?_update, RuleStates.stateOf_update_self]
  split <;> rfl

theorem switchedOn_cases (hl : e.Linked) (ht : e.target? ref = some (epoch, r)) (now : Instant) :
    (∃ plan due, r.timerPlan? = some plan ∧ now.after? plan.initial = some due ∧ e.CanStart ref r ∧
        e.switchedOn ref epoch r now = (e.flag ref true).startTimer ref epoch plan.interval due) ∨
      (∀ plan due, r.timerPlan? = some plan → now.after? plan.initial = some due →
          ¬e.CanStart ref r) ∧
        e.switchedOn ref epoch r now = e.flag ref true := by
  have hid : (⟨ref.scope, r.id⟩ : RuleRef) = ref := by
    rw [Catalog.id_of_rule? (target?_eq_some_iff.mp ht).2]
  unfold switchedOn
  cases hplan : r.timerPlan? with
  | none =>
    right
    refine ⟨(fun _ _ hp => nomatch hp), ?_⟩
    rw [armTimer_of_no_plan hplan, ite_self]
  | some plan =>
    rw [if_pos (event_of_timerPlan? hplan)]
    have hcases := armTimer_eq hplan (e.flag ref true) ref.scope epoch now
    rw [hid, touch_flag, lacksTimer_flag_iff hl] at hcases
    rcases hcases with ⟨hno, he⟩ | ⟨due, hcan, hdue, he⟩
    · right
      refine ⟨fun plan' due hp hdue hcan => ?_, he⟩
      obtain rfl := Option.some.inj hp
      rcases hno with hno | hnone
      · exact hno hcan
      · simp [hnone] at hdue
    · exact .inl ⟨plan, due, rfl, hdue, hcan, he⟩

theorem Linked.turnsOn (hl : e.Linked) (ht : e.target? ref = some (epoch, r)) (now : Instant) :
    TurnsOn ref epoch r now e (e.switchedOn ref epoch r now) := by
  have hflag (k : RuleRef) : (e.flag ref true).states.get? k =
      if k = ref then some { e.states.stateOf ref with enabledOverride := some true }
      else e.states.get? k := RuleStates.get?_update ..
  rcases switchedOn_cases hl ht now with ⟨plan, due, hplan, hdue, hcan, he⟩ | ⟨hno, he⟩ <;> rw [he]
  · have hstates (k : RuleRef) :
        ((e.flag ref true).startTimer ref epoch plan.interval due).states.get? k =
          if k = ref then some { e.states.stateOf ref with
            enabledOverride := some true
            timer := some e.schedule.nextHandle }
          else e.states.get? k := by
      unfold Engine.startTimer
      rw [RuleStates.get?_update, hflag]
      split
      · rw [RuleStates.stateOf_of_get? ((hflag ref).trans (if_pos rfl))]
        rfl
      · rfl
    constructor
    · constructor
      case settings | catalog | waiting => rfl
      case states =>
        intro k hk
        exact (hstates k).trans (if_neg hk)
      case jobs =>
        intro h q hq
        have hjob : ((e.flag ref true).startTimer ref epoch plan.interval due).job? h = _ :=
          Schedule.job?_register ..
        rw [hjob]
        split
        · rename_i hnew
          constructor
          · intro heq
            obtain rfl := Option.some.inj heq
            exact absurd rfl hq
          · intro hold
            -- The handle of the new timer is the next one, under which nothing was issued.
            exact absurd hnew (hl.issued h q hold).1.ne
        · rfl
    case deferred => rfl
    case started =>
      intro plan' due' hplan' hdue' _
      obtain rfl := Option.some.inj (hplan.symm.trans hplan')
      obtain rfl := Option.some.inj (hdue.symm.trans hdue')
      exact ⟨rfl, (hstates ref).trans (if_pos rfl)⟩
    case unstarted =>
      intro hno
      exact absurd hcan (hno plan due hplan hdue)
  · constructor
    · constructor
      case settings | catalog | waiting => rfl
      case states =>
        intro k hk
        exact (hflag k).trans (if_neg hk)
      case jobs => exact fun _ _ _ => Iff.rfl
    case deferred => rfl
    case started =>
      intro plan due hplan hdue hcan
      exact absurd hcan (hno plan due hplan hdue)
    case unstarted =>
      intro _
      exact ⟨rfl, (hflag ref).trans (if_pos rfl)⟩

end On

section Again

variable {e'' : Engine} {later : Instant}

theorem ext_parts (hsettings : e'.settings = e.settings) (hcatalog : e'.catalog = e.catalog)
    (hstates : ∀ k, e'.states.get? k = e.states.get? k) (hjobs : ∀ h, e'.job? h = e.job? h)
    (hhandle : e'.schedule.nextHandle = e.schedule.nextHandle)
    (hturn : e'.schedule.nextTurn = e.schedule.nextTurn)
    (hdeferred : ∀ h, e'.deferred.get? h = e.deferred.get? h) (hwaiting : e'.waiting = e.waiting) :
    e' = e := by
  obtain ⟨settings, catalog, states, ⟨jobs, nextHandle, nextTurn⟩, deferred, waiting⟩ := e
  obtain ⟨settings', catalog', states', ⟨jobs', nextHandle', nextTurn'⟩, deferred', waiting'⟩ := e'
  cases hsettings
  cases hcatalog
  cases hhandle
  cases hturn
  cases hwaiting
  obtain rfl : states' = states := SortedMap.ext_get? hstates
  obtain rfl : jobs' = jobs := SortedMap.ext_get? hjobs
  obtain rfl : deferred' = deferred := SortedMap.ext_get? hdeferred
  rfl

theorem TurnsOff.stateOf (h : TurnsOff ref r e e') :
    e'.states.stateOf ref = { e.states.stateOf ref with
      enabledOverride := some false
      timer := if r.event = .timer then none else e.timerOf ref } :=
  RuleStates.stateOf_of_get? h.state

theorem TurnsOff.again (h : TurnsOff ref r e e') (h' : TurnsOff ref r e' e'') : e'' = e' := by
  refine ext_parts h'.settings h'.catalog (fun k => ?_) (fun k => ?_) h'.nextHandle h'.nextTurn
    (fun k => ?_) h'.waiting
  · by_cases hk : k = ref
    · subst k
      rw [h'.state, h.state, timerOf, h.stateOf]
      congr 2
      dsimp only
      split <;> rfl
    · exact h'.states k hk
  · rw [h'.job?, h.job?, Option.filter_filter]
    simp
  · rw [h'.deferred, h.deferred, Option.filter_filter]
    simp

theorem TurnsOff.canStart (h : TurnsOff ref r e e') :
    e'.CanStart ref r ↔ (e.states.stateOf ref).isExhausted r.fireLimit? = false := by
  have hidle : ¬e'.HasTimer ref := by
    rintro ⟨k, q, epoch, hq, hp⟩
    rw [h.job?, Option.filter_eq_some_iff] at hq
    simp [hp, Job.ref?] at hq
  have hexhausted : (e'.states.stateOf ref).isExhausted r.fireLimit? =
      (e.states.stateOf ref).isExhausted r.fireLimit? := by
    rw [h.stateOf]
    rfl
  unfold CanStart
  rw [hexhausted]
  exact and_iff_right hidle

theorem TurnsOn.restarted {off : Engine} (hon : TurnsOn ref epoch r now off e')
    (hoff : TurnsOff ref r e off) {plan : Rule.TimerPlan} {due : Instant}
    (hplan : r.timerPlan? = some plan) (hdue : now.after? plan.initial = some due)
    (hleft : (e.states.stateOf ref).isExhausted r.fireLimit? = false) (h : Handle) :
    e'.job? h = if h = e.schedule.nextHandle then
        some ⟨due, e.schedule.nextTurn, if 0 < plan.interval then some plan.interval else none,
          .ruleTimer ref epoch⟩
      else (e.job? h).filter fun q => q.payload.ref? ≠ some ref := by
  obtain ⟨hschedule, -⟩ := hon.started plan due hplan hdue (hoff.canStart.mpr hleft)
  rw [job?, hschedule, Schedule.every, Schedule.job?_register, hoff.nextHandle, hoff.nextTurn,
    ← hoff.job?]
  rfl

theorem Instant.after?_of_later {t : Instant} {d : Span} (hd : (0 : Int) ≤ d)
    (ht : t = now ∨ Instant.first ≤ now ∧ now ≤ t) {due : Instant} (h : t.after? d = some due) :
    ∃ due, now.after? d = some due := by
  rcases ht with rfl | ⟨hfirst, hle⟩
  · exact ⟨due, h⟩
  · obtain ⟨rfl, -, hlast⟩ := Instant.after?_eq_some_iff.mp h
    refine ⟨now + d, Instant.after?_eq_some_iff.mpr ⟨rfl, ?_, ?_⟩⟩
    · exact hfirst.trans (le_add_of_nonneg_right hd)
    · exact (add_le_add_left hle d).trans hlast

theorem TurnsOn.cannotStart (h : TurnsOn ref epoch r now e e')
    (hlater : later = now ∨ Instant.first ≤ now ∧ now ≤ later) {plan : Rule.TimerPlan} {due : Instant}
    (hplan : r.timerPlan? = some plan) (hdue : later.after? plan.initial = some due) :
    ¬e'.CanStart ref r := by
  obtain ⟨due₀, hdue₀⟩ := Instant.after?_of_later (Rule.nonneg_of_timerPlan? hplan) hlater hdue
  by_cases hcan : e.CanStart ref r
  · obtain ⟨hschedule, -⟩ := h.started plan due₀ hplan hdue₀ hcan
    rintro ⟨hidle, -⟩
    have hjob := Schedule.job?_register e.schedule due₀
      (if 0 < plan.interval then some plan.interval else none) (.ruleTimer ref epoch)
      e.schedule.nextHandle
    rw [if_pos rfl] at hjob
    exact hidle ⟨_, _, epoch, by rw [job?, hschedule]; exact hjob, rfl⟩
  · obtain ⟨hschedule, hstate⟩ := h.unstarted fun plan' due' hplan' _ => hcan
    have hexhausted : (e'.states.stateOf ref).isExhausted r.fireLimit? =
        (e.states.stateOf ref).isExhausted r.fireLimit? := by
      rw [RuleStates.stateOf_of_get? hstate]
      rfl
    rintro ⟨hidle, hleft⟩
    refine hcan ⟨?_, hexhausted ▸ hleft⟩
    rintro ⟨k, q, epoch', hq, hp⟩
    exact hidle ⟨k, q, epoch', by rwa [job?, hschedule], hp⟩

theorem TurnsOn.again (h : TurnsOn ref epoch r now e e') (h' : TurnsOn ref epoch r later e' e'')
    (hlater : later = now ∨ Instant.first ≤ now ∧ now ≤ later) : e'' = e' := by
  obtain ⟨hschedule, hstate⟩ := h'.unstarted fun plan due => h.cannotStart hlater
  -- The flag is set by now, whether a timer was started with it or not.
  have hoverride : ∃ s : RuleState, e'.states.get? ref = some { s with enabledOverride := some true } := by
    by_cases hstarts : ∃ plan due, r.timerPlan? = some plan ∧ now.after? plan.initial = some due ∧
        e.CanStart ref r
    · obtain ⟨plan, due, hplan, hdue, hcan⟩ := hstarts
      exact ⟨{ e.states.stateOf ref with timer := some e.schedule.nextHandle },
        (h.started plan due hplan hdue hcan).2⟩
    · push Not at hstarts
      exact ⟨_, (h.unstarted hstarts).2⟩
  refine ext_parts h'.settings h'.catalog (fun k => ?_) (fun k => by rw [job?, hschedule]; rfl)
    (by rw [hschedule]) (by rw [hschedule]) (fun k => by rw [h'.deferred]) h'.waiting
  by_cases hk : k = ref
  · subst k
    obtain ⟨s, hs⟩ := hoverride
    rw [hstate, RuleStates.stateOf_of_get? hs, hs]
  · exact h'.states k hk

end Again

theorem setEnabled_eq_error_iff {enabled : Bool} {err : EngineError} :
    e.setEnabled ref enabled now = .error err ↔
      e.catalog.contains ref.scope = false ∧ err = .scopeNotLoaded ref.scope ∨
        e.catalog.contains ref.scope = true ∧ e.catalog.rule? ref = none ∧ err = .ruleNotFound ref := by
  cases ht : e.target? ref with
  | some t =>
    obtain ⟨epoch, r⟩ := t
    have hrule := (target?_eq_some_iff.mp ht).2
    simp [setEnabled_of_target? ht, hrule, Catalog.contains_of_rule? hrule]
  | none =>
    have hrule : e.catalog.rule? ref = none := by
      by_contra hne
      obtain ⟨r, hr⟩ := Option.ne_none_iff_exists'.mp hne
      obtain ⟨epoch, hsome⟩ := exists_target?_of_rule? hr
      simp [ht] at hsome
    unfold setEnabled target
    rw [ht, hrule]
    cases e.catalog.contains ref.scope <;> simp [bind, Except.bind, eq_comm]

/-- A switch fails just when the scope is not loaded or has no such rule, and changes nothing then.
Otherwise it does what `TurnsOff` or `TurnsOn` says; to do it again changes nothing more, and a timer that
is switched off and on again starts anew. -/
theorem switching_of_reaches {settings : Settings} {ops : List Operation} (h : Reaches settings ops e)
    (ref : RuleRef) :
    (∀ enabled now err, e.setEnabled ref enabled now = .error err ↔
      e.catalog.contains ref.scope = false ∧ err = .scopeNotLoaded ref.scope ∨
        e.catalog.contains ref.scope = true ∧ e.catalog.rule? ref = none ∧ err = .ruleNotFound ref) ∧
    (∀ enabled now err, e.setEnabled ref enabled now = .error err →
      e.perform (.setEnabled ref enabled now) = some e) ∧
    ∀ epoch r, e.target? ref = some (epoch, r) → (r.event = .timer → r.timerPlan?.isSome) ∧
      ∀ now, ∃ off on,
        e.setEnabled ref false now = .ok (.controlChanged ref.scope ref.rule false, off) ∧
        TurnsOff ref r e off ∧
        e.setEnabled ref true now = .ok (.controlChanged ref.scope ref.rule true, on) ∧
        TurnsOn ref epoch r now e on ∧
        (∀ later, off.setEnabled ref false later =
          .ok (.controlChanged ref.scope ref.rule false, off)) ∧
        (∀ later, later = now ∨ Instant.first ≤ now ∧ now ≤ later → on.setEnabled ref true later =
          .ok (.controlChanged ref.scope ref.rule true, on)) ∧
        ∀ later, ∃ anew,
          off.setEnabled ref true later = .ok (.controlChanged ref.scope ref.rule true, anew) ∧
          TurnsOn ref epoch r later off anew ∧
          ∀ plan due, r.timerPlan? = some plan → later.after? plan.initial = some due →
            (e.states.stateOf ref).isExhausted r.fireLimit? = false → ∀ k, anew.job? k =
              if k = e.schedule.nextHandle then
                some ⟨due, e.schedule.nextTurn, if 0 < plan.interval then some plan.interval else none,
                  .ruleTimer ref epoch⟩
              else (e.job? k).filter fun q => q.payload.ref? ≠ some ref := by
  have hl := h.linked
  refine ⟨fun _ _ _ => setEnabled_eq_error_iff, fun enabled now err herr => by rw [perform, herr], ?_⟩
  intro epoch r ht
  refine ⟨Rule.timerPlan?_isSome_of_validate (hl.catalog.valid (target?_eq_some_iff.mp ht).2),
    fun now => ?_⟩
  have hsetOff := setEnabled_of_target? ht false now
  have hsetOn := setEnabled_of_target? ht true now
  have hoff := hl.turnsOff ht
  have hon := hl.turnsOn ht now
  have hlOff : (e.switchedOff ref r).Linked := hl.setEnabled hsetOff
  have hlOn : (e.switchedOn ref epoch r now).Linked := hl.setEnabled hsetOn
  have htOff : (e.switchedOff ref r).target? ref = some (epoch, r) :=
    (target?_congr (by rw [hoff.catalog])).trans ht
  have htOn : (e.switchedOn ref epoch r now).target? ref = some (epoch, r) :=
    (target?_congr (by rw [hon.catalog])).trans ht
  refine ⟨_, _, hsetOff, hoff, hsetOn, hon, fun later => ?_, fun later hlater => ?_, fun later => ?_⟩
  · have hagain := setEnabled_of_target? htOff false later
    rwa [if_neg (by simp), hoff.again (hlOff.turnsOff htOff)] at hagain
  · have hagain := setEnabled_of_target? htOn true later
    rwa [if_pos rfl, hon.again (hlOn.turnsOn htOn later) hlater] at hagain
  · have hanew := hlOff.turnsOn htOff later
    exact ⟨_, setEnabled_of_target? htOff true later, hanew,
      fun plan due hplan hdue hleft => hanew.restarted hoff hplan hdue hleft⟩

def ticker : RuleRef := ⟨.room "cellar", "ticker"⟩

def ticking : Content :=
  .ofRules (.room "cellar") [
    { Rule.plain "ticker" .timer [⟨"message_room", .ofList [("text", .string "tick")], 0⟩] with
      timerInterval := some 60
      timerInitialDelay := 10 }]

theorem switching_of_ticking :
    ∃ e off anew, Reaches (.builtin 8) [.load ticking 0] e ∧ (e.job? 1).isSome ∧
      e.setEnabled ticker false 5000000000 = .ok (.controlChanged (.room "cellar") "ticker" false, off) ∧
      off.setEnabled ticker true 7000000000 = .ok (.controlChanged (.room "cellar") "ticker" true, anew) ∧
      anew.job? 1 = none ∧ (anew.job? 2).map (·.due) = some 17000000000 := by
  obtain ⟨e, h, hp⟩ := exists_reaches (.builtin 8) [.load ticking 0]
    (fun e => (e.job? 1).any (fun q : Registration Job => decide (q.payload.ref? = some ticker)) &&
      e.schedule.nextHandle == 2 && (e.target? ticker).any fun t : Nat × Rule =>
        decide (t.2.timerPlan? = some ⟨10000000000, 60000000000⟩ ∧
          (e.states.stateOf ticker).isExhausted t.2.fireLimit? = false))
    (by simp [Operation.Authored, ticking, Content.Authored.ofRules]) (by decide +kernel)
  simp only [Bool.and_eq_true, beq_iff_eq, Option.any_eq_true, decide_eq_true_eq] at hp
  obtain ⟨⟨⟨q, hq, href⟩, hnext⟩, ⟨epoch, r⟩, ht, hplan, hleft⟩ := hp
  obtain ⟨-, -, hloaded⟩ := switching_of_reaches h ticker
  obtain ⟨off, _, hoff, -, -, -, -, -, hanew⟩ := (hloaded epoch r ht).2 5000000000
  obtain ⟨anew, hon, -, hjobs⟩ := hanew 7000000000
  have hjobs := hjobs _ 17000000000 hplan (by decide) hleft
  refine ⟨e, off, anew, h, by rw [hq]; rfl, hoff, hon, ?_, ?_⟩
  · rw [hjobs, hnext, if_neg (by decide), hq]
    simp [href, Option.filter_some]
  · rw [hjobs, hnext, if_pos rfl]
    rfl

end WorldTriggers.Engine
