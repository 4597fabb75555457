import WorldTriggers.Proofs.Effects
import WorldTriggers.Proofs.Engine.ImmediateJobs
import WorldTriggers.Proofs.Engine.Numbering

/-!
The order in which `advance` runs jobs. `RunsInOrder` keeps each job with the registration under which it came
up. What a job schedules is due now or later and takes a later turn (`Schedule.Renews`), so the jobs come
up in the order of their due times and turns, and one that was cancelled does not come up.
-/

namespace WorldTriggers

theorem Instant.le_of_after? {t u : Instant} {d : Span} (hd : (0 : Int) ≤ d)
    (h : t.after? d = some u) : t ≤ u := by
  obtain ⟨rfl, -, -⟩ := Instant.after?_eq_some_iff.mp h
  exact le_add_of_nonneg_right hd

namespace Schedule

variable {α : Type} {s t u : Schedule α} {now : Instant}

def TurnsDiffer (s : Schedule α) : Prop :=
  ∀ h k r q, s.job? h = some r → s.job? k = some q → r.turn = q.turn → h = k

/-- The jobs of the second schedule that are not those of the first have a later turn, are due now or
later, and go on under a handle that was pending or is new. -/
structure Renews (now : Instant) (s t : Schedule α) : Prop where
  nextHandle : s.nextHandle ≤ t.nextHandle
  nextTurn : s.nextTurn ≤ t.nextTurn
  jobs : ∀ k q, t.job? k = some q → s.job? k = some q ∨
    ((s.job? k).isSome ∨ s.nextHandle ≤ k) ∧ s.nextTurn ≤ q.turn ∧ now ≤ q.due

theorem Renews.refl (now : Instant) (s : Schedule α) : Renews now s s :=
  ⟨le_refl _, le_refl _, fun _ _ => .inl⟩

theorem Renews.trans (h : Renews now s t) (h' : Renews now t u) : Renews now s u where
  nextHandle := h.nextHandle.trans h'.nextHandle
  nextTurn := h.nextTurn.trans h'.nextTurn
  jobs k q hq := by
    rcases h'.jobs k q hq with hold | ⟨hk, hturn, hdue⟩
    · exact h.jobs k q hold
    · refine .inr ⟨?_, h.nextTurn.trans hturn, hdue⟩
      rcases hk with hk | hk
      · obtain ⟨p, hp⟩ := Option.isSome_iff_exists.mp hk
        rcases h.jobs k p hp with hold | ⟨hnew, -⟩
        · exact .inl (Option.isSome_iff_exists.mpr ⟨p, hold⟩)
        · exact hnew
      · exact .inr (h.nextHandle.trans hk)

theorem renews_register {due : Instant} (hdue : now ≤ due) (s : Schedule α) (interval : Option Span)
    (payload : α) : Renews now s (s.register due interval payload).2 where
  nextHandle := Nat.le_succ _
  nextTurn := Nat.le_succ _
  jobs k q hq := by
    rw [job?_register] at hq
    split at hq
    · obtain rfl := Option.some.inj hq
      exact .inr ⟨.inr (by simp [*]), le_refl _, hdue⟩
    · exact .inl hq

theorem renews_cancelWhere (now : Instant) (s : Schedule α) (p : Handle → Bool) :
    Renews now s (s.cancelWhere p) where
  nextHandle := le_refl _
  nextTurn := le_refl _
  jobs k q hq := by
    rw [job?_cancelWhere] at hq
    split at hq
    · cases hq
    · exact .inl hq

theorem renews_rearm {h : Handle} {r : Registration α} (hr : s.job? h = some r)
    (hlate : ∀ due, nextTime? r now = some due → now ≤ due) : Renews now s (s.rearm h r now) where
  nextHandle := by rw [nextHandle_rearm]
  nextTurn := by
    unfold rearm
    split
    · exact Nat.le_succ _
    · exact le_refl _
  jobs k q hq := by
    rw [job?_rearm] at hq
    split at hq
    · subst k
      obtain ⟨due, hnext, rfl⟩ := Option.map_eq_some_iff.mp hq
      exact .inr ⟨.inl (by simp [hr]), le_refl _, hlate due hnext⟩
    · exact .inl hq

theorem Renews.job?_eq_none (h : Renews now s t) {k : Handle} (hk : k < s.nextHandle)
    (hn : s.job? k = none) : t.job? k = none := by
  by_contra hne
  obtain ⟨q, hq⟩ := Option.ne_none_iff_exists'.mp hne
  rcases h.jobs k q hq with hold | ⟨hsome | hle, -⟩
  · simp [hn] at hold
  · simp [hn] at hsome
  · exact absurd hk (not_lt_of_ge hle)

theorem job?_of_first? {h : Handle} {r : Registration α} (hf : s.first? = some (h, r)) :
    s.job? h = some r := SortedMap.get?_eq_some_iff.mpr (firstOf_mem hf)

theorem rank_le_of_first? {h k : Handle} {r q : Registration α} (hf : s.first? = some (h, r))
    (hq : s.job? k = some q) : rank r ≤ rank q :=
  firstOf_rank_le hf (SortedMap.get?_eq_some_iff.mp hq)

theorem before_of_turn_ne {r q : Registration α} (hle : rank r ≤ rank q) (hne : q.turn ≠ r.turn) :
    r.before q := by
  refine before_iff.mpr (lt_of_le_of_ne hle fun heq => hne ?_)
  exact (congrArg (fun x => (ofLex x).2) heq).symm

theorem before_of_later {r q : Registration α} (hdue : r.due ≤ q.due) (hturn : r.turn < q.turn) :
    r.before q := by
  unfold Registration.before
  rcases lt_or_eq_of_le hdue with hlt | heq
  · simp [hlt]
  · simp [heq, hturn]

theorem TurnsDiffer.of_latest (hs : s.TurnsDiffer) (hturn : s.InTurn) {k : Handle}
    (hjobs : ∀ h r, t.job? h = some r → h = k ∧ r.turn = s.nextTurn ∨ s.job? h = some r) :
    t.TurnsDiffer := by
  intro h j r q hr hq heq
  rcases hjobs h r hr with ⟨rfl, hlast⟩ | hold <;> rcases hjobs j q hq with ⟨rfl, hlast'⟩ | hold'
  · rfl
  · exact absurd (hturn j q hold') (not_lt_of_ge (hlast.ge.trans heq.le))
  · exact absurd (hturn h r hold) (not_lt_of_ge (hlast'.ge.trans heq.ge))
  · exact hs h j r q hold hold' heq

theorem Move.turnsDiffer (h : Move s t) (hturn : s.InTurn) (hs : s.TurnsDiffer) : t.TurnsDiffer := by
  cases h with
  | register due interval payload =>
    refine hs.of_latest hturn (k := s.nextHandle) fun h r hr => ?_
    rw [job?_register] at hr
    split at hr
    · exact .inl ⟨‹_›, by rw [← Option.some.inj hr]⟩
    · exact .inr hr
  | cancelWhere p =>
    refine hs.of_latest hturn (k := 0) fun h r hr => ?_
    rw [job?_cancelWhere] at hr
    split at hr
    · cases hr
    · exact .inr hr
  | @rearm k r hr now =>
    refine hs.of_latest hturn (k := k) fun h q hq => ?_
    rw [job?_rearm] at hq
    split at hq
    · obtain ⟨due, -, rfl⟩ := Option.map_eq_some_iff.mp hq
      exact .inl ⟨‹_›, rfl⟩
    · exact .inr hq

theorem Moves.turnsDiffer (h : Moves s t) (hturn : s.InTurn) (hs : s.TurnsDiffer) :
    t.TurnsDiffer := by
  induction h with
  | refl => exact hs
  | tail hmoves hmove ih => exact hmove.turnsDiffer (Moves.inTurn hmoves hturn) ih

end Schedule

def Followup.IsTimely : Followup → Prop
  | .expireEffect _ _ _ after => (0 : Int) ≤ after
  | _ => True

def ActionRegistry.Timely (actions : ActionRegistry) : Prop :=
  ∀ kind act p env o w, actions.get? kind = some act → act p env = .ok (o, w) →
    ∀ x ∈ o.followups, x.IsTimely

namespace ActionHandler

theorem nonneg_of_effectDuration {p : Params} {duration : Span}
    (h : effectDuration p = .ok (some duration)) : (0 : Int) ≤ duration := by
  unfold effectDuration at h
  obtain ⟨x?, -, h⟩ := bind_eq_ok.mp h
  cases x? with
  | none => cases h
  | some x =>
    dsimp only at h
    split at h
    · cases h
    · split at h
      · rename_i d hd
        obtain rfl := Option.some.inj (Except.ok.inj h)
        exact Span.nonneg_of_ofSeconds? hd
      · cases h

theorem isTimely_of_applyEffect {p : Params} {env : ActionEnv} {o : Outcome} {w : World}
    (h : applyEffect p env = .ok (o, w)) {x : Followup} (hx : x ∈ o.followups) : x.IsTimely := by
  obtain ⟨actor, effect, stat, duration, isNew, -, -, -, hduration, -, rfl⟩ := applyEffect_eq_ok h
  cases isNew with
  | false => cases hx
  | true =>
    obtain ⟨after, hafter, rfl⟩ : ∃ after, duration = some after ∧
        Followup.expireEffect actor effect stat after = x := by simpa using hx
    exact nonneg_of_effectDuration (hafter ▸ hduration)

end ActionHandler

theorem ActionRegistry.timely_builtin : ActionRegistry.builtin.Timely := by
  intro kind act p env o w hact hok x hx
  rcases ActionHandler.effects_cases hact with ⟨-, rfl⟩ | ⟨-, rfl⟩ | ⟨-, -, hspares⟩
  · exact ActionHandler.isTimely_of_applyEffect hok hx
  · obtain ⟨_, _, _, -, -, -, rfl⟩ := ActionHandler.removeEffect_eq_ok hok
    cases hx
  · obtain ⟨-, hnone⟩ := hspares p env o w hok
    cases x with
    | setEnabled | fireRule => trivial
    | expireEffect actor effect stat after => exact absurd hx (hnone actor effect stat after)

theorem Action.Leaves.isTimely {actions : ActionRegistry} {f : Firing} {a : Action}
    {left : List Followup} (h : a.Leaves actions f left) (hactions : actions.Timely) :
    ∀ x ∈ left, x.IsTimely := by
  rcases h with rfl | ⟨act, w, o, w', hact, hok, rfl⟩
  · exact List.forall_mem_nil _
  · exact hactions a.kind act a.params _ o w' hact hok

namespace Engine

open Schedule (Renews)

variable {e e' : Engine} {now : Instant}

theorem renews_disarmTimer (e : Engine) (ref : RuleRef) (now : Instant) :
    Renews now e.schedule (e.disarmTimer ref).schedule := by
  unfold disarmTimer
  dsimp only
  split
  · rw [Schedule.cancel_eq_cancelWhere]
    exact Schedule.renews_cancelWhere ..
  · exact .refl ..

theorem renews_armTimer (e : Engine) (scope : Scope) (epoch : Nat) (r : Rule) (now : Instant) :
    Renews now e.schedule (e.armTimer scope epoch r now).schedule := by
  cases hplan : r.timerPlan? with
  | none =>
    rw [armTimer_of_no_plan hplan]
    exact .refl ..
  | some plan =>
    rcases armTimer_eq hplan e scope epoch now with ⟨-, he⟩ | ⟨due, -, hdue, he⟩ <;> rw [he]
    · exact .refl ..
    · exact Schedule.renews_register
        (Instant.le_of_after? (Rule.nonneg_of_timerPlan? hplan) hdue) ..

theorem renews_setEnabled {ref : RuleRef} {enabled : Bool} {notice : Notice}
    (h : e.setEnabled ref enabled now = .ok (notice, e')) : Renews now e.schedule e'.schedule := by
  obtain ⟨epoch, r, -, rfl⟩ := setEnabled_eq_ok h
  have hcancel (d : Engine) : Renews now d.schedule (d.cancelDeferred (· == ref)).schedule :=
    Schedule.renews_cancelWhere ..
  cases enabled with
  | true =>
    rw [if_pos rfl, switchedOn]
    split
    · exact renews_armTimer (e.flag ref true) ..
    · exact .refl ..
  | false =>
    rw [if_neg (by simp), switchedOff]
    split
    · exact (renews_disarmTimer (e.flag ref false) ref now).trans (hcancel _)
    · exact hcancel (e.flag ref false)

theorem renews_recordFiring (e : Engine) (f : Firing) (now : Instant) :
    Renews now e.schedule (e.recordFiring f now).schedule := by
  unfold recordFiring
  dsimp only
  split
  · exact renews_disarmTimer
      { e with states := e.states.update f.ref (·.recordFiring f.cooldownKey now) } f.ref now
  · exact .refl ..

theorem renews_taken {k : Handle} {r : Registration Job} (hl : e.Linked) (hr : e.job? k = some r)
    (now : Instant) : Renews now e.schedule (e.taken k r now).schedule := by
  rw [schedule_taken]
  refine Schedule.renews_rearm hr fun due hnext => ?_
  by_contra hlt
  have hq : (e.taken k r now).job? k = some { r with due := due, turn := e.schedule.nextTurn } := by
    rw [job?_taken, if_pos rfl, hnext]
    rfl
  exact (hl.due_of_taken hr hq (not_le.mp hlt).le).1 rfl

end Engine

def Stage.IsTimely : Stage → Prop
  | .followups _ left => ∀ x ∈ left, x.IsTimely
  | _ => True

theorem Run.Leads.renews {stage : Stage} {run run' : Run} (h : Run.Leads stage run run')
    (hf : run.engine.Installed stage.firing) (hactions : run.engine.settings.actions.Timely)
    (hstage : stage.IsTimely) :
    Schedule.Renews run.now run.engine.schedule run'.engine.schedule := by
  induction h with
  | refused | ended | settled => exact .refl ..
  | @fired f run run' hm h ih =>
    have hstep : Engine.Step run.now run.engine (run.enter f).engine := .record hf
    exact (Engine.renews_recordFiring run.engine f run.now).trans
      (ih (hf.congr hstep.catalog) (hstep.settings ▸ hactions) trivial)
  | deferred ha hw hd =>
    exact Schedule.renews_register (Instant.le_of_after? (Action.nonneg_of_wait? hw) hd) ..
  | acted ha hw hleaves h hrest ih ihrest =>
    obtain ⟨hnow, hsteps⟩ := h.steps hf
    have hlast := ihrest (hf.congr hsteps.catalog) (hsteps.settings ▸ hactions) trivial
    rw [hnow] at hlast
    exact (ih hf hactions (hleaves.isTimely hactions)).trans hlast
  | passed h ih => exact ih hf hactions (List.forall_mem_cons.mp hstage).2
  | @switched f target enabled rest notice engine run run' hset h ih =>
    have hstep : Engine.Step run.now run.engine engine := .switch hset
    exact (Engine.renews_setEnabled hset).trans
      (ih (hf.congr hstep.catalog) (hstep.settings ▸ hactions) (List.forall_mem_cons.mp hstage).2)
  | @cascaded f target epoch rule rest run mid run' ht h hrest ih ihrest =>
    have hinstalled := Engine.installed_of_target? ht f.context
    obtain ⟨hnow, hsteps⟩ := h.steps hinstalled
    have hlast := ihrest (hf.congr hsteps.catalog) (hsteps.settings ▸ hactions)
      (List.forall_mem_cons.mp hstage).2
    rw [hnow] at hlast
    exact (ih hinstalled hactions trivial).trans hlast
  | expires hd h ih =>
    obtain ⟨hafter, hrest⟩ := List.forall_mem_cons.mp hstage
    exact (Schedule.renews_register (Instant.le_of_after? hafter hd) ..).trans (ih hf hactions hrest)

namespace Engine

open Schedule (Renews)

variable {e e' : Engine} {w w' : World} {now : Instant} {notices : List Notice}

structure OrderInvariant (e : Engine) : Prop where
  linked : e.Linked
  actions : e.settings.actions.Timely
  inTurn : e.schedule.InTurn
  turnsDiffer : e.schedule.TurnsDiffer

theorem Reaches.turnsDiffer {settings : Settings} {ops : List Operation} (h : Reaches settings ops e) :
    e.schedule.TurnsDiffer := by
  refine (h.induct_operationSteps (motive := fun _ d => d.schedule.InTurn ∧ d.schedule.TurnsDiffer)
    ⟨(fun _ _ hr => nomatch hr), fun _ _ _ _ hr => nomatch hr⟩ ?_).2
  rintro _ _ _ _ _ _ hl ht ⟨hturn, hs⟩
  exact ⟨(ht.moves hl).inTurn hturn, (ht.moves hl).turnsDiffer hturn hs⟩

theorem Reaches.orderInvariant {settings : Settings} {ops : List Operation} (h : Reaches settings ops e)
    (hactions : settings.actions.Timely) : e.OrderInvariant :=
  ⟨h.linked, by rwa [h.settings], h.inTurn, h.turnsDiffer⟩

section Job

variable {k : Handle} {r : Registration Job}

theorem OrderInvariant.taken (ho : e.OrderInvariant) (hr : e.job? k = some r) (now : Instant) :
    (e.taken k r now).OrderInvariant := by
  have hmoves := moves_taken hr now
  exact ⟨ho.linked.taken hr now, by rw [settings_taken]; exact ho.actions, hmoves.inTurn ho.inTurn,
    hmoves.turnsDiffer ho.inTurn ho.turnsDiffer⟩

theorem OrderInvariant.steps (ho : e.OrderInvariant) (hs : Steps now e e') : e'.OrderInvariant :=
  ⟨ho.linked.steps hs, by rw [hs.settings]; exact ho.actions, hs.moves.inTurn ho.inTurn,
    hs.moves.turnsDiffer ho.inTurn ho.turnsDiffer⟩

theorem Follows.steps {job : Job} (hf : Follows e w job now e') : Steps now e e' := by
  rcases hf.leads with ⟨_, _, _, -, rfl⟩ | ⟨stage, run, run', -, rfl, rfl, hinstalled, hleads, rfl⟩
  · exact .refl
  · exact (hleads.steps hinstalled).2

theorem Follows.renews {job : Job} (hf : Follows e w job now e')
    (hactions : e.settings.actions.Timely) : Renews now e.schedule e'.schedule := by
  rcases hf.leads with
    ⟨_, _, _, -, rfl⟩ | ⟨stage, run, run', hbegins, rfl, rfl, hinstalled, hleads, rfl⟩
  · exact .refl ..
  · exact hleads.renews hinstalled hactions (by cases hbegins <;> trivial)

theorem OrderInvariant.runJob (ho : e.OrderInvariant) (hr : e.job? k = some r)
    (hrun : runJob { e with schedule := e.schedule.rearm k r now } w k r.payload now =
      (notices, e', w')) :
    e'.OrderInvariant ∧ Renews now e.schedule e'.schedule ∧
      ∀ j q, e'.job? j = some q → q.turn ≠ r.turn := by
  have hfollows := follows_runJob ho.linked hr hrun
  have htaken := ho.taken hr now
  have hrenews := renews_taken ho.linked hr now
  have hlast := hfollows.renews htaken.actions
  have hturn := ho.inTurn k r hr
  refine ⟨htaken.steps hfollows.steps, hrenews.trans hlast, fun j q hq => ?_⟩
  rcases hlast.jobs j q hq with hold | ⟨-, hnew, -⟩
  · replace hold : (e.taken k r now).job? j = some q := hold
    rw [job?_taken] at hold
    split at hold
    · obtain ⟨due, -, rfl⟩ := Option.map_eq_some_iff.mp hold
      exact hturn.ne'
    · intro heq
      exact absurd (ho.turnsDiffer j k q r hold hr heq) ‹_›
  · exact (hturn.trans_le (hrenews.nextTurn.trans hnew)).ne'

end Job

inductive RunsInOrder (now : Instant) :
    Engine → World → List (Handle × Registration Job) → List Notice → Engine → World → Prop where
  | rest (e : Engine) (w : World) : RunsInOrder now e w [] [] e w
  | job {e e' e'' : Engine} {w w' w'' : World} {k : Handle} {r : Registration Job}
      {js : List (Handle × Registration Job)} {notices told : List Notice}
      (hfirst : e.schedule.first? = some (k, r)) (hdue : r.due ≤ now)
      (hrun : runJob { e with schedule := e.schedule.rearm k r now } w k r.payload now =
        (notices, e', w'))
      (hrest : RunsInOrder now e' w' js told e'' w'') :
      RunsInOrder now e w ((k, r) :: js) (notices ++ told) e'' w''

theorem exists_first?_of_runNext? (h : e.runNext? w now = some (notices, e', w')) :
    ∃ k r, e.schedule.first? = some (k, r) ∧ r.due ≤ now ∧
      runJob { e with schedule := e.schedule.rearm k r now } w k r.payload now = (notices, e', w') := by
  unfold runNext? Schedule.popDue? at h
  cases hf : e.schedule.first? with
  | none => simp [hf] at h
  | some p =>
    obtain ⟨k, r⟩ := p
    rw [hf] at h
    by_cases hdue : r.due ≤ now
    · exact ⟨k, r, rfl, hdue, by simpa [hdue] using h⟩
    · simp [hdue] at h

theorem runsInOrder_of_advanceFrom {budget : Nat} {told : List Notice}
    (h : advanceFrom budget told e w now = some (notices, e', w')) :
    ∃ js new, RunsInOrder now e w js new e' w' ∧ notices = told.reverse ++ new ∧
      e'.runNext? w' now = none := by
  induction budget generalizing told e w with
  | zero =>
    unfold advanceFrom at h
    split at h
    · cases h
      exact ⟨[], [], .rest .., by simp, ‹_›⟩
    · cases h
  | succ budget ih =>
    unfold advanceFrom at h
    split at h
    · cases h
      exact ⟨[], [], .rest .., by simp, ‹_›⟩
    · obtain ⟨k, r, hfirst, hdue, hrun⟩ := exists_first?_of_runNext? ‹_›
      obtain ⟨js, new, hrunsInOrder, rfl, hnone⟩ := ih h
      exact ⟨_, _, .job hfirst hdue hrun hrunsInOrder, by simp [List.reverseAux_eq], hnone⟩

namespace RunsInOrder

variable {js : List (Handle × Registration Job)}

theorem orderInvariant_and_renews (h : RunsInOrder now e w js notices e' w') (ho : e.OrderInvariant) :
    e'.OrderInvariant ∧ Renews now e.schedule e'.schedule := by
  induction h with
  | rest => exact ⟨ho, .refl ..⟩
  | job hfirst hdue hrun hrest ih =>
    obtain ⟨ho', hrenews, -⟩ := ho.runJob (Schedule.job?_of_first? hfirst) hrun
    exact ⟨(ih ho').1, hrenews.trans (ih ho').2⟩

theorem exists_pending (h : RunsInOrder now e w js notices e' w') (ho : e.OrderInvariant) {k : Handle}
    {r : Registration Job} (hj : (k, r) ∈ js) :
    ∃ s, Renews now e.schedule s ∧ s.job? k = some r := by
  induction h with
  | rest => cases hj
  | @job e _ _ _ _ _ j q _ _ _ hfirst hdue hrun hrest ih =>
    have hq := Schedule.job?_of_first? hfirst
    rcases List.mem_cons.mp hj with heq | hj
    · cases heq
      exact ⟨e.schedule, .refl .., hq⟩
    · obtain ⟨ho', hrenews, -⟩ := ho.runJob hq hrun
      obtain ⟨s, hs, hr⟩ := ih ho' hj
      exact ⟨s, hrenews.trans hs, hr⟩

theorem due_le (h : RunsInOrder now e w js notices e' w') : ∀ j ∈ js, j.2.due ≤ now := by
  induction h with
  | rest => exact List.forall_mem_nil _
  | job hfirst hdue hrun hrest ih => exact List.forall_mem_cons.mpr ⟨hdue, ih⟩

theorem pairwise_before (h : RunsInOrder now e w js notices e' w') (ho : e.OrderInvariant) :
    js.Pairwise fun a b => a.2.before b.2 := by
  induction h with
  | rest => exact .nil
  | @job e e₁ _ _ _ _ k r js _ _ hfirst hdue hrun hrest ih =>
    have hr := Schedule.job?_of_first? hfirst
    obtain ⟨ho', hrenews, hne⟩ := ho.runJob hr hrun
    refine .cons ?_ (ih ho')
    rintro ⟨j, q⟩ hj
    -- A job that was there already came after this one; a new one is due now and has a later turn.
    have hlater (hturn : e.schedule.nextTurn ≤ q.turn) (hq : now ≤ q.due) : r.before q :=
      Schedule.before_of_later (hdue.trans hq) ((ho.inTurn k r hr).trans_le hturn)
    obtain ⟨s, hs, hq⟩ := hrest.exists_pending ho' hj
    rcases hs.jobs j q hq with hmid | ⟨-, hturn, hq⟩
    · rcases hrenews.jobs j q hmid with hold | ⟨-, hturn, hq⟩
      · exact Schedule.before_of_turn_ne (Schedule.rank_le_of_first? hfirst hold) (hne j q hmid)
      · exact hlater hturn hq
    · exact hlater (hrenews.nextTurn.trans hturn) hq

theorem split {js₁ js₂ : List (Handle × Registration Job)}
    (h : RunsInOrder now e w (js₁ ++ js₂) notices e' w') :
    ∃ mid v told₁ told₂, RunsInOrder now e w js₁ told₁ mid v ∧ RunsInOrder now mid v js₂ told₂ e' w' := by
  induction js₁ generalizing e w notices with
  | nil => exact ⟨e, w, [], notices, .rest e w, h⟩
  | cons j js₁ ih =>
    cases h with
    | job hfirst hdue hrun hrest =>
      obtain ⟨mid, v, told₁, told₂, h₁, h₂⟩ := ih hrest
      exact ⟨mid, v, _, told₂, .job hfirst hdue hrun h₁, h₂⟩

theorem not_mem_of_job?_eq_none (h : RunsInOrder now e w js notices e' w') (ho : e.OrderInvariant) {k : Handle}
    (hk : k < e.schedule.nextHandle) (hn : e.job? k = none) (r : Registration Job) : (k, r) ∉ js := by
  intro hj
  obtain ⟨s, hs, hr⟩ := h.exists_pending ho hj
  simp [hs.job?_eq_none hk hn] at hr

end RunsInOrder

theorem advance_of_runNext?_eq_none (h : e.runNext? w now = none) (budget : Nat) :
    e.advance budget w now = some ([], e, w) := by
  unfold advance advanceFrom
  rw [h]
  rfl

theorem lt_nextDeadline? (h : ∀ k r, e.job? k = some r → now < r.due) {t : Instant}
    (ht : e.nextDeadline? = some t) : now < t := by
  obtain ⟨⟨k, r⟩, hfirst, rfl⟩ := Option.map_eq_some_iff.mp ht
  exact h k r (Schedule.job?_of_first? hfirst)

/-- `advance` runs what is due by due time and turn: jobs that were pending, and jobs scheduled on the
way, which are due just then and take a later turn. A job that is cancelled on the way does not run.
Nothing is due afterwards, so that to advance to the same time or an earlier one does nothing. -/
theorem due_order_of_reaches {settings : Settings} {ops : List Operation} {budget : Nat}
    (h : Reaches settings ops e) (hactions : settings.actions.Timely)
    (hadv : e.advance budget w now = some (notices, e', w')) :
    ∃ js, RunsInOrder now e w js notices e' w' ∧
      (∀ k r, (k, r) ∈ js → r.due ≤ now ∧
        (e.job? k = some r ∧ r.turn < e.schedule.nextTurn ∨
          r.due = now ∧ e.schedule.nextTurn ≤ r.turn)) ∧
      (js.Pairwise fun a b => a.2.before b.2) ∧
      (∀ js₁ js₂, js = js₁ ++ js₂ → ∃ mid v told₁ told₂,
        RunsInOrder now e w js₁ told₁ mid v ∧ RunsInOrder now mid v js₂ told₂ e' w' ∧
          ∀ k < mid.schedule.nextHandle, mid.job? k = none → ∀ r, (k, r) ∉ js₂) ∧
      (∀ k r, e'.job? k = some r → now < r.due) ∧
      (∀ t, e'.nextDeadline? = some t → now < t) ∧
      ∀ t ≤ now, ∀ budget v, e'.advance budget v t = some ([], e', v) := by
  have ho := h.orderInvariant hactions
  obtain ⟨js, new, hrunsInOrder, hnew, hnone⟩ := runsInOrder_of_advanceFrom hadv
  obtain rfl : notices = new := by simpa using hnew
  have hpending := runNext?_eq_none_iff.mp hnone
  refine ⟨js, hrunsInOrder, ?_, hrunsInOrder.pairwise_before ho, ?_, hpending,
    fun t => lt_nextDeadline? hpending,
    fun t ht budget v => ?_⟩
  · intro k r hj
    have hdue := hrunsInOrder.due_le _ hj
    obtain ⟨s, hs, hr⟩ := hrunsInOrder.exists_pending ho hj
    rcases hs.jobs k r hr with hold | ⟨-, hturn, hnow⟩
    · exact ⟨hdue, .inl ⟨hold, ho.inTurn k r hold⟩⟩
    · exact ⟨hdue, .inr ⟨le_antisymm hdue hnow, hturn⟩⟩
  · rintro js₁ js₂ rfl
    obtain ⟨mid, v, told₁, told₂, h₁, h₂⟩ := hrunsInOrder.split
    have hmid := (h₁.orderInvariant_and_renews ho).1
    exact ⟨mid, v, told₁, told₂, h₁, h₂, fun k hk hn => h₂.not_mem_of_job?_eq_none hmid hk hn⟩
  · apply advance_of_runNext?_eq_none
    exact runNext?_eq_none_iff.mpr fun k r hr => ht.trans_lt (hpending k r hr)

def hushing : Content :=
  .ofRules (.room "cellar") [
    { Rule.plain "bell" .timer [⟨"message_room", .ofList [("text", .string "dong")], 0⟩] with
      timerInterval := some 60
      timerInitialDelay := 20 },
    { Rule.plain "hush" .timer [⟨"disable_trigger", .ofList [("trigger", .string "bell")], 0⟩] with
      timerInterval := some 60
      timerInitialDelay := 10 }]

theorem due_order_of_hushing :
    ∃ e notices e' w', Reaches (.builtin 8) [.load hushing 0] e ∧ e.pendingJobs = 2 ∧
      e.advance 5 {} 30000000000 = some (notices, e', w') ∧ e'.pendingJobs = 1 ∧
      ∃ js, RunsInOrder 30000000000 e {} js notices e' w' ∧ js.Pairwise fun a b => a.2.before b.2 := by
  obtain ⟨e, h, hp⟩ := exists_reaches (.builtin 8) [.load hushing 0]
    (fun e => e.pendingJobs == 2 &&
      (e.advance 5 {} 30000000000).any fun x => x.2.1.pendingJobs == 1)
    (by simp [Operation.Authored, hushing, Content.Authored.ofRules]) (by decide +kernel)
  simp only [Bool.and_eq_true, beq_iff_eq, Option.any_eq_true] at hp
  obtain ⟨hjobs, ⟨notices, e', w'⟩, hadv, hjobs'⟩ := hp
  obtain ⟨js, hrunsInOrder, -, hpairwise, -⟩ := due_order_of_reaches h ActionRegistry.timely_builtin hadv
  exact ⟨e, notices, e', w', h, hjobs, hadv, hjobs', js, hrunsInOrder, hpairwise⟩

end Engine

end WorldTriggers
