import WorldTriggers.Engine.Lifecycle
import WorldTriggers.Proofs.Catalog
import WorldTriggers.Proofs.RuleState
import WorldTriggers.Proofs.Schedule

/-!
How the parts of an engine hang together. A pending registration belongs to an installed rule and is
known to the state of that rule or to the table of continuations; `Linked` says so, and each operation
on the schedule, the states and the continuations keeps it.
-/

namespace WorldTriggers

def Job.ref? : Job → Option RuleRef
  | .ruleTimer ref _ => some ref
  | .continuation c => some c.firing.ref
  | .expireEffect .. => none

namespace Engine

variable {e : Engine} {ref : RuleRef} {now : Instant}

def job? (e : Engine) (h : Handle) : Option (Registration Job) := e.schedule.job? h

def timerOf (e : Engine) (ref : RuleRef) : Option Handle := (e.states.stateOf ref).timer

theorem target?_eq_some_iff {epoch : Nat} {rule : Rule} :
    e.target? ref = some (epoch, rule) ↔
      e.catalog.epoch? ref.scope = some epoch ∧ e.catalog.rule? ref = some rule := by
  unfold target? Catalog.epoch?
  rw [Catalog.rule?_eq_some_iff]
  cases e.catalog.get? ref.scope with
  | none => simp
  | some i =>
    simp only [Option.map_eq_some_iff, Option.map_some, Option.some.injEq, Prod.mk.injEq,
      exists_eq_left', and_left_comm, exists_and_left]

theorem target?_congr {e' : Engine}
    (h : e'.catalog.get? ref.scope = e.catalog.get? ref.scope) : e'.target? ref = e.target? ref := by
  simp [target?, h]

theorem ref_of_target? {epoch : Nat} {rule : Rule} (h : e.target? ref = some (epoch, rule))
    (context : Context) : Firing.ref ⟨ref.scope, epoch, rule, context⟩ = ref := by
  have hid := Catalog.id_of_rule? (target?_eq_some_iff.mp h).2
  cases ref
  simp_all [Firing.ref]

theorem exists_target?_of_rule? {rule : Rule} (h : e.catalog.rule? ref = some rule) :
    ∃ epoch, e.target? ref = some (epoch, rule) := by
  have hepoch := Catalog.epoch?_isSome e.catalog ref.scope
  rw [Catalog.contains_of_rule? h] at hepoch
  obtain ⟨epoch, hepoch⟩ := Option.isSome_iff_exists.mp hepoch
  exact ⟨epoch, target?_eq_some_iff.mpr ⟨hepoch, h⟩⟩

theorem isSome_of_target? {epoch : Nat} {rule : Rule} (h : e.target? ref = some (epoch, rule)) :
    (e.catalog.rule? ref).isSome := by
  simp [(target?_eq_some_iff.mp h).2]

def Installed (e : Engine) (f : Firing) : Prop := e.target? f.ref = some (f.epoch, f.rule)

theorem installed_of_target? {epoch : Nat} {rule : Rule} (h : e.target? ref = some (epoch, rule))
    (context : Context) : e.Installed ⟨ref.scope, epoch, rule, context⟩ := by
  rw [Installed, ref_of_target? h]
  exact h

/-- What a pending registration says about the engine. -/
def Fits (e : Engine) (h : Handle) (r : Registration Job) : Prop :=
  match r.payload with
  | .ruleTimer ref epoch =>
    ∃ rule plan, e.target? ref = some (epoch, rule) ∧ rule.timerPlan? = some plan ∧
      r.interval = (if 0 < plan.interval then some plan.interval else none) ∧
      e.timerOf ref = some h
  | .continuation c =>
    e.Installed c.firing ∧ c.next < c.firing.rule.actions.length ∧ r.interval = none ∧
      e.deferred.get? h = some c.firing.ref
  | .expireEffect .. => r.interval = none

structure Linked (e : Engine) : Prop where
  catalog : e.catalog.Sound
  states : ∀ ref, (e.states.get? ref).isSome → (e.catalog.rule? ref).isSome
  fits : ∀ h r, e.job? h = some r → e.Fits h r
  issued : ∀ h r, e.job? h = some r → h < e.schedule.nextHandle ∧ Instant.first ≤ r.due
  timers : ∀ ref h, e.timerOf ref = some h → h < e.schedule.nextHandle ∧
    ∀ r, e.job? h = some r → ∃ epoch, r.payload = .ruleTimer ref epoch
  deferred : ∀ h ref, e.deferred.get? h = some ref →
    ∃ r c, e.job? h = some r ∧ r.payload = .continuation c ∧ c.firing.ref = ref
  waiting : ∀ ref record, e.waiting.get? ref = some record →
    record.ref = ref ∧ e.catalog.contains ref.scope = false

def WantsTimer (e : Engine) (ref : RuleRef) : Prop :=
  ∃ rule, e.catalog.rule? ref = some rule ∧ rule.event = .timer ∧
    (e.states.stateOf ref).isEnabled rule.enabled = true ∧
    (e.states.stateOf ref).isExhausted rule.fireLimit? = false

instance (e : Engine) (ref : RuleRef) : Decidable (e.WantsTimer ref) :=
  decidable_of_iff ((e.catalog.rule? ref).any fun r => r.event == .timer &&
      (e.states.stateOf ref).isEnabled r.enabled &&
      !(e.states.stateOf ref).isExhausted r.fireLimit?) (by
    simp only [WantsTimer, Option.any_eq_true, Bool.and_eq_true, beq_iff_eq, Bool.not_eq_true',
      and_assoc])

def Live (e : Engine) : Prop :=
  ∀ h r ref epoch, e.job? h = some r → r.payload = .ruleTimer ref epoch → e.WantsTimer ref

theorem event_of_timerPlan? {r : Rule} {plan : Rule.TimerPlan} (h : r.timerPlan? = some plan) :
    r.event = .timer := by
  unfold Rule.timerPlan? at h
  by_contra hne
  simp [hne] at h

theorem Fits.mono {e' : Engine} {h : Handle} {r : Registration Job} (hf : e.Fits h r)
    (htarget : ∀ ref, r.payload.ref? = some ref → e'.target? ref = e.target? ref)
    (htimer : ∀ ref, e.timerOf ref = some h → e'.timerOf ref = some h)
    (hdeferred : ∀ ref, e.deferred.get? h = some ref → e'.deferred.get? h = some ref) :
    e'.Fits h r := by
  unfold Fits at hf ⊢
  cases hp : r.payload with
  | ruleTimer ref epoch =>
    rw [hp] at hf htarget
    obtain ⟨rule, plan, ht, hplan, hi, hh⟩ := hf
    exact ⟨rule, plan, (htarget ref rfl).trans ht, hplan, hi, htimer ref hh⟩
  | continuation c =>
    rw [hp] at hf htarget
    obtain ⟨ht, hlt, hi, hd⟩ := hf
    exact ⟨(htarget _ rfl).trans ht, hlt, hi, hdeferred _ hd⟩
  | expireEffect actor effect stat =>
    rw [hp] at hf
    exact hf

theorem WantsTimer.congr {e' : Engine} (h : e.WantsTimer ref)
    (hr : e'.catalog.rule? ref = e.catalog.rule? ref)
    (hs : e'.states.stateOf ref = e.states.stateOf ref) : e'.WantsTimer ref := by
  obtain ⟨rule, hrule, ht, hen, hex⟩ := h
  exact ⟨rule, hr.trans hrule, ht, hs ▸ hen, hs ▸ hex⟩

theorem Live.mono {e' : Engine} (hv : e.Live)
    (h : ∀ k r ref epoch, e'.job? k = some r → r.payload = .ruleTimer ref epoch →
      (∃ q, e.job? k = some q ∧ q.payload = .ruleTimer ref epoch) ∧
        (e.WantsTimer ref → e'.WantsTimer ref)) : e'.Live := by
  intro k r ref epoch hr hp
  obtain ⟨⟨q, hq, hpq⟩, hw⟩ := h k r ref epoch hr hp
  exact hw (hv k q ref epoch hq hpq)

section States

theorem timerOf_update (e : Engine) (ref : RuleRef) (f : RuleState → RuleState) (k : RuleRef) :
    timerOf { e with states := e.states.update ref f } k =
      if k = ref then (f (e.states.stateOf ref)).timer else e.timerOf k := by
  simp only [timerOf, RuleStates.stateOf_update]
  split <;> rfl

theorem Linked.update (hl : e.Linked) (hr : (e.catalog.rule? ref).isSome)
    {f : RuleState → RuleState} (hf : (f (e.states.stateOf ref)).timer = e.timerOf ref) :
    Linked { e with states := e.states.update ref f } := by
  have htimer (k : RuleRef) : timerOf { e with states := e.states.update ref f } k = e.timerOf k := by
    rw [timerOf_update]
    split
    · subst k
      exact hf
    · rfl
  refine { hl with states := ?_, fits := ?_, timers := ?_ }
  · intro k hk
    rw [RuleStates.get?_update] at hk
    split at hk
    · subst k
      exact hr
    · exact hl.states k hk
  · intro h r hj
    exact (hl.fits h r hj).mono (fun _ _ => rfl) (fun k hk => (htimer k).trans hk) (fun _ => id)
  · intro k h hk
    exact hl.timers k h ((htimer k).symm.trans hk)

theorem job?_disarmTimer (e : Engine) (ref : RuleRef) (h : Handle) :
    (e.disarmTimer ref).job? h = if e.timerOf ref = some h then none else e.job? h := by
  unfold disarmTimer job? timerOf
  cases (e.states.stateOf ref).timer with
  | none => simp
  | some k =>
    dsimp only
    rw [Schedule.job?_cancel]
    simp [eq_comm]

theorem timerOf_disarmTimer (e : Engine) (ref k : RuleRef) :
    (e.disarmTimer ref).timerOf k = if k = ref then none else e.timerOf k := by
  unfold disarmTimer timerOf
  rw [RuleStates.stateOf_update]
  split <;> rfl

theorem stateOf_disarmTimer (e : Engine) (ref k : RuleRef) :
    (e.disarmTimer ref).states.stateOf k =
      if k = ref then { e.states.stateOf ref with timer := none } else e.states.stateOf k :=
  RuleStates.stateOf_update ..

@[simp] theorem catalog_disarmTimer (e : Engine) (ref : RuleRef) :
    (e.disarmTimer ref).catalog = e.catalog := rfl

@[simp] theorem nextHandle_disarmTimer (e : Engine) (ref : RuleRef) :
    (e.disarmTimer ref).schedule.nextHandle = e.schedule.nextHandle := by
  unfold disarmTimer
  dsimp only
  split <;> rfl

theorem job?_of_disarmTimer {h : Handle} {r : Registration Job}
    (hj : (e.disarmTimer ref).job? h = some r) : e.timerOf ref ≠ some h ∧ e.job? h = some r := by
  rw [job?_disarmTimer] at hj
  split at hj
  · cases hj
  · exact ⟨‹_›, hj⟩

theorem Linked.disarmTimer (hl : e.Linked) (hr : (e.catalog.rule? ref).isSome) :
    (e.disarmTimer ref).Linked := by
  have htimer {k : RuleRef} {h : Handle} (hk : (e.disarmTimer ref).timerOf k = some h) :
      e.timerOf k = some h := by
    rw [timerOf_disarmTimer] at hk
    split at hk
    · cases hk
    · exact hk
  refine { hl with states := ?_, fits := ?_, issued := ?_, timers := ?_, deferred := ?_ }
  · intro k hk
    rw [Engine.disarmTimer, RuleStates.get?_update] at hk
    split at hk
    · subst k
      exact hr
    · exact hl.states k hk
  · intro h r hj
    obtain ⟨hne, hj⟩ := job?_of_disarmTimer hj
    refine (hl.fits h r hj).mono (fun _ _ => rfl) (fun k hk => ?_) (fun _ => id)
    rw [timerOf_disarmTimer, if_neg (by rintro rfl; exact hne hk), hk]
  · intro h r hj
    rw [nextHandle_disarmTimer]
    exact hl.issued h r (job?_of_disarmTimer hj).2
  · intro k h hk
    obtain ⟨hlt, hjob⟩ := hl.timers k h (htimer hk)
    exact ⟨by rwa [nextHandle_disarmTimer], fun r hj => hjob r (job?_of_disarmTimer hj).2⟩
  · intro h k hk
    obtain ⟨r, c, hj, hp, hc⟩ := hl.deferred h k hk
    refine ⟨r, c, ?_, hp, hc⟩
    rw [job?_disarmTimer, if_neg, hj]
    intro ht
    obtain ⟨epoch, hp'⟩ := (hl.timers ref h ht).2 r hj
    simp [hp] at hp'

end States

namespace Linked

theorem timer_unique (hl : e.Linked) {h k : Handle} {r q : Registration Job} {epoch epoch' : Nat}
    (hr : e.job? h = some r) (hq : e.job? k = some q) (hpr : r.payload = .ruleTimer ref epoch)
    (hpq : q.payload = .ruleTimer ref epoch') : h = k := by
  have h1 := hl.fits h r hr
  have h2 := hl.fits k q hq
  simp only [Fits, hpr] at h1
  simp only [Fits, hpq] at h2
  obtain ⟨_, _, _, _, _, h1⟩ := h1
  obtain ⟨_, _, _, _, _, h2⟩ := h2
  exact Option.some.inj (h1.symm.trans h2)

theorem stateOf_of_not_installed (hl : e.Linked) (h : e.catalog.rule? ref = none) :
    e.states.get? ref = none := by
  by_contra hne
  simpa [h] using hl.states ref (Option.isSome_iff_ne_none.mpr hne)

end Linked

section Registrations

variable {due : Instant} {interval : Option Span} {payload : Job}

theorem job?_scheduleContinuation (e : Engine) (c : Continuation) (due : Instant) (h : Handle) :
    (e.scheduleContinuation c due).job? h =
      if h = e.schedule.nextHandle then some ⟨due, e.schedule.nextTurn, none, .continuation c⟩
      else e.job? h :=
  Schedule.job?_register ..

theorem job?_scheduleExpiry (e : Engine) (actor : ActorId) (effect : String)
    (stat : Option StatChange) (due : Instant) (h : Handle) :
    (e.scheduleExpiry actor effect stat due).job? h =
      if h = e.schedule.nextHandle then
        some ⟨due, e.schedule.nextTurn, none, .expireEffect actor effect stat⟩
      else e.job? h :=
  Schedule.job?_register ..

theorem Linked.register {e' : Engine} (hl : e.Linked)
    (hschedule : e'.schedule = (e.schedule.register due interval payload).2)
    (hcatalog : e'.catalog = e.catalog) (hwaiting : e'.waiting = e.waiting)
    (hdue : Instant.first ≤ due)
    (hfits : e'.Fits e.schedule.nextHandle ⟨due, e.schedule.nextTurn, interval, payload⟩)
    (hstates : ∀ ref, (e'.states.get? ref).isSome → (e.catalog.rule? ref).isSome)
    (hkept : ∀ ref h, e.timerOf ref = some h → (e.job? h).isSome → e'.timerOf ref = some h)
    (htimers : ∀ ref h, e'.timerOf ref = some h →
      e.timerOf ref = some h ∨ h = e.schedule.nextHandle ∧ ∃ epoch, payload = .ruleTimer ref epoch)
    (hstays : ∀ ref h, e.deferred.get? h = some ref → e'.deferred.get? h = some ref)
    (hdeferred : ∀ ref h, e'.deferred.get? h = some ref → e.deferred.get? h = some ref ∨
      h = e.schedule.nextHandle ∧ ∃ c, payload = .continuation c ∧ c.firing.ref = ref) :
    e'.Linked := by
  have hjob (h : Handle) : e'.job? h =
      if h = e.schedule.nextHandle then some ⟨due, e.schedule.nextTurn, interval, payload⟩
      else e.job? h := by
    rw [job?, hschedule, Schedule.job?_register]
    rfl
  have hnext : e'.schedule.nextHandle = e.schedule.nextHandle + 1 := by
    rw [hschedule, Schedule.nextHandle_register]
  have hold {h : Handle} (hlt : h < e.schedule.nextHandle) : e'.job? h = e.job? h := by
    rw [hjob, if_neg (Nat.ne_of_lt hlt)]
  refine ⟨by rw [hcatalog]; exact hl.catalog, by rwa [hcatalog], ?_, ?_, ?_, ?_,
    by rw [hwaiting, hcatalog]; exact hl.waiting⟩
  · intro h r hr
    rw [hjob] at hr
    split at hr
    · subst h
      cases hr
      exact hfits
    · refine (hl.fits h r hr).mono (fun ref _ => target?_congr (by rw [hcatalog])) ?_ ?_
      · exact fun ref ht => hkept ref h ht (by simp [hr])
      · exact fun ref => hstays ref h
  · intro h r hr
    rw [hjob] at hr
    rw [hnext]
    split at hr
    · subst h
      cases hr
      exact ⟨Nat.lt_succ_self _, hdue⟩
    · exact ⟨Nat.lt_succ_of_lt (hl.issued h r hr).1, (hl.issued h r hr).2⟩
  · intro ref h ht
    rw [hnext]
    rcases htimers ref h ht with ht | ⟨rfl, epoch, hp⟩
    · obtain ⟨hlt, hr⟩ := hl.timers ref h ht
      exact ⟨Nat.lt_succ_of_lt hlt, by rwa [hold hlt]⟩
    · refine ⟨Nat.lt_succ_self _, fun r hr => ⟨epoch, ?_⟩⟩
      rw [hjob, if_pos rfl] at hr
      cases hr
      exact hp
  · intro h ref hd
    rcases hdeferred ref h hd with hd | ⟨rfl, c, hp, hc⟩
    · obtain ⟨r, c, hr, hp, hc⟩ := hl.deferred h ref hd
      exact ⟨r, c, by rw [hold (hl.issued h r hr).1, hr], hp, hc⟩
    · exact ⟨_, c, by rw [hjob, if_pos rfl], hp, hc⟩

theorem Live.register {e' : Engine} (hv : e.Live)
    (hschedule : e'.schedule = (e.schedule.register due interval payload).2)
    (hwants : ∀ ref, e.WantsTimer ref → e'.WantsTimer ref)
    (hnew : ∀ ref epoch, payload = .ruleTimer ref epoch → e'.WantsTimer ref) : e'.Live := by
  intro h r ref epoch hr hp
  rw [job?, hschedule, Schedule.job?_register] at hr
  split at hr
  · cases hr
    exact hnew ref epoch hp
  · exact hwants ref (hv h r ref epoch hr hp)

theorem Linked.scheduleContinuation {c : Continuation} (hl : e.Linked)
    (hf : e.Installed c.firing) (hn : c.next < c.firing.rule.actions.length)
    (hdue : Instant.first ≤ due) : (e.scheduleContinuation c due).Linked := by
  have hget (h : Handle) : (e.scheduleContinuation c due).deferred.get? h =
      if h = e.schedule.nextHandle then some c.firing.ref else e.deferred.get? h :=
    SortedMap.get?_insert ..
  refine hl.register rfl rfl rfl hdue ?_ hl.states (fun _ _ ht _ => ht) (fun _ _ => .inl) ?_ ?_
  · exact ⟨hf, hn, rfl, by rw [hget, if_pos rfl]⟩
  · intro ref h hd
    obtain ⟨r, -, hr, -⟩ := hl.deferred h ref hd
    rw [hget, if_neg (Nat.ne_of_lt (hl.issued h r hr).1), hd]
  · intro ref h hd
    rw [hget] at hd
    split at hd
    · exact .inr ⟨‹_›, c, rfl, Option.some.inj hd⟩
    · exact .inl hd

theorem Live.scheduleContinuation (hv : e.Live) (c : Continuation) (due : Instant) :
    (e.scheduleContinuation c due).Live :=
  hv.register rfl (fun _ hw => hw.congr rfl rfl) (fun _ _ h => nomatch h)

theorem Linked.scheduleExpiry (hl : e.Linked) (actor : ActorId) (effect : String)
    (stat : Option StatChange) (hdue : Instant.first ≤ due) :
    (e.scheduleExpiry actor effect stat due).Linked :=
  hl.register rfl rfl rfl hdue rfl hl.states (fun _ _ ht _ => ht) (fun _ _ => .inl)
    (fun _ _ => id) (fun _ _ => .inl)

theorem Live.scheduleExpiry (hv : e.Live) (actor : ActorId) (effect : String)
    (stat : Option StatChange) (due : Instant) : (e.scheduleExpiry actor effect stat due).Live :=
  hv.register rfl (fun _ hw => hw.congr rfl rfl) (fun _ _ h => nomatch h)

end Registrations

section Timers

def startTimer (e : Engine) (ref : RuleRef) (epoch : Nat) (interval : Span) (due : Instant) :
    Engine :=
  { e with
    schedule := (e.schedule.every due interval (.ruleTimer ref epoch)).2
    states := e.states.update ref fun s => { s with timer := some e.schedule.nextHandle } }

def touch (e : Engine) (ref : RuleRef) : Engine := { e with states := e.states.update ref id }

@[simp] theorem stateOf_touch (e : Engine) (ref k : RuleRef) :
    (e.touch ref).states.stateOf k = e.states.stateOf k := by
  unfold touch
  rw [RuleStates.stateOf_update]
  split
  · subst k
    rfl
  · rfl

@[simp] theorem timerOf_touch (e : Engine) (ref k : RuleRef) :
    (e.touch ref).timerOf k = e.timerOf k := by
  simp [timerOf]

def lacksTimer (e : Engine) (ref : RuleRef) (r : Rule) : Prop :=
  (e.timerOf ref).any e.schedule.isPending = false ∧
    (e.states.stateOf ref).isEnabled r.enabled = true ∧
    (e.states.stateOf ref).isExhausted r.fireLimit? = false

theorem armTimer_eq {r : Rule} {plan : Rule.TimerPlan} (hplan : r.timerPlan? = some plan)
    (e : Engine) (scope : Scope) (epoch : Nat) (now : Instant) :
    (¬(e.touch ⟨scope, r.id⟩).lacksTimer ⟨scope, r.id⟩ r ∨ now.after? plan.initial = none) ∧
        e.armTimer scope epoch r now = e.touch ⟨scope, r.id⟩ ∨
      ∃ due, (e.touch ⟨scope, r.id⟩).lacksTimer ⟨scope, r.id⟩ r ∧
        now.after? plan.initial = some due ∧
        e.armTimer scope epoch r now =
          (e.touch ⟨scope, r.id⟩).startTimer ⟨scope, r.id⟩ epoch plan.interval due := by
  unfold armTimer lacksTimer
  rw [hplan]
  dsimp only
  split
  · rename_i hc
    refine .inl ⟨.inl fun hn => ?_, rfl⟩
    obtain ⟨h1, h2, h3⟩ := hn
    simp only [touch, timerOf] at h1 h2 h3
    rw [h1, h2, h3] at hc
    simp at hc
  · rename_i hc
    simp only [Bool.or_eq_true, not_or, Bool.not_eq_true, Bool.not_eq_false'] at hc
    obtain ⟨⟨h1, h2⟩, h3⟩ := hc
    cases hd : now.after? plan.initial with
    | none => exact .inl ⟨.inr rfl, rfl⟩
    | some due => exact .inr ⟨due, ⟨h1, h2, h3⟩, rfl, rfl⟩

theorem armTimer_of_no_plan {r : Rule} (hplan : r.timerPlan? = none) (e : Engine) (scope : Scope)
    (epoch : Nat) (now : Instant) : e.armTimer scope epoch r now = e := by
  unfold armTimer
  rw [hplan]

theorem Linked.touch (hl : e.Linked) (hr : (e.catalog.rule? ref).isSome) : (e.touch ref).Linked :=
  hl.update hr rfl

theorem timerOf_startTimer (e : Engine) (ref : RuleRef) (epoch : Nat) (interval : Span)
    (due : Instant) (k : RuleRef) :
    (e.startTimer ref epoch interval due).timerOf k =
      if k = ref then some e.schedule.nextHandle else e.timerOf k := by
  unfold startTimer timerOf
  rw [RuleStates.stateOf_update]
  split <;> rfl

theorem Linked.startTimer {epoch : Nat} {rule : Rule} {plan : Rule.TimerPlan} {due : Instant}
    (hl : e.Linked) (ht : e.target? ref = some (epoch, rule)) (hplan : rule.timerPlan? = some plan)
    (hn : e.lacksTimer ref rule) (hdue : Instant.first ≤ due) :
    (e.startTimer ref epoch plan.interval due).Linked := by
  refine hl.register rfl rfl rfl hdue ?_ ?_ ?_ ?_ (fun _ _ => id) (fun _ _ => .inl)
  · refine ⟨rule, plan, ht, hplan, rfl, ?_⟩
    rw [timerOf_startTimer, if_pos rfl]
  · intro k hk
    rw [Engine.startTimer, RuleStates.get?_update] at hk
    split at hk
    · subst k
      exact isSome_of_target? ht
    · exact hl.states k hk
  · intro k h hk hp
    rw [timerOf_startTimer, if_neg, hk]
    rintro rfl
    have hpending := hn.1
    rw [hk, Option.any_some, Schedule.isPending_eq] at hpending
    rw [job?, hpending] at hp
    cases hp
  · intro k h hk
    rw [timerOf_startTimer] at hk
    split at hk
    · subst k
      exact .inr ⟨(Option.some.inj hk).symm, epoch, rfl⟩
    · exact .inl hk

theorem wantsTimer_startTimer {epoch : Nat} {interval : Span} {due : Instant} {k : RuleRef} :
    (e.startTimer ref epoch interval due).WantsTimer k ↔ e.WantsTimer k := by
  unfold WantsTimer startTimer
  dsimp only
  rw [RuleStates.stateOf_update]
  by_cases hk : k = ref
  · subst k
    simp only [if_true]
    rfl
  · simp only [hk, if_false]

end Timers

end Engine

end WorldTriggers
