import WorldTriggers.Proofs.Engine.Dispatch

namespace WorldTriggers

inductive Job.Begins : Job → Stage → Prop where
  | timer {ref : RuleRef} {rule : Rule} (epoch : Nat) (context : Context) (hid : rule.id = ref.rule) :
      Begins (.ruleTimer ref epoch) (.attempt ⟨ref.scope, epoch, rule, context⟩)
  | continuation (c : Continuation) : Begins (.continuation c) (.actions c.firing true c.next)

theorem Job.Begins.ref?_eq {job : Job} {stage : Stage} (h : job.Begins stage) :
    job.ref? = some stage.firing.ref := by
  cases h with
  | @timer ref rule epoch context hid =>
    cases ref
    cases hid
    rfl
  | continuation c => rfl

namespace Engine

variable {e e' : Engine} {w w' : World} {h : Handle} {r : Registration Job} {now : Instant}
  {notices : List Notice}

def taken (e : Engine) (h : Handle) (r : Registration Job) (now : Instant) : Engine :=
  match r.payload with
  | .continuation _ =>
    { e with schedule := e.schedule.rearm h r now, deferred := e.deferred.erase h }
  | _ => { e with schedule := e.schedule.rearm h r now }

theorem schedule_taken (e : Engine) (h : Handle) (r : Registration Job) (now : Instant) :
    (e.taken h r now).schedule = e.schedule.rearm h r now := by
  unfold taken
  split <;> rfl

@[simp] theorem catalog_taken (e : Engine) (h : Handle) (r : Registration Job) (now : Instant) :
    (e.taken h r now).catalog = e.catalog := by
  unfold taken
  split <;> rfl

@[simp] theorem states_taken (e : Engine) (h : Handle) (r : Registration Job) (now : Instant) :
    (e.taken h r now).states = e.states := by
  unfold taken
  split <;> rfl

@[simp] theorem waiting_taken (e : Engine) (h : Handle) (r : Registration Job) (now : Instant) :
    (e.taken h r now).waiting = e.waiting := by
  unfold taken
  split <;> rfl

@[simp] theorem settings_taken (e : Engine) (h : Handle) (r : Registration Job) (now : Instant) :
    (e.taken h r now).settings = e.settings := by
  unfold taken
  split <;> rfl

theorem job?_taken (e : Engine) (h : Handle) (r : Registration Job) (now : Instant) (k : Handle) :
    (e.taken h r now).job? k =
      if k = h then
        (Schedule.nextTime? r now).map fun due => { r with due := due, turn := e.schedule.nextTurn }
      else e.job? k := by
  rw [job?, schedule_taken, Schedule.job?_rearm]
  rfl

theorem job?_of_taken {k : Handle} {q : Registration Job} (hr : e.job? h = some r)
    (hq : (e.taken h r now).job? k = some q) :
    ∃ p, e.job? k = some p ∧ p.payload = q.payload := by
  rw [job?_taken] at hq
  split at hq
  · subst k
    obtain ⟨due, -, rfl⟩ := Option.map_eq_some_iff.mp hq
    exact ⟨r, hr, rfl⟩
  · exact ⟨q, hq, rfl⟩

theorem Fits.payload_of_interval (hf : e.Fits h r) (hi : r.interval.isSome) :
    ∃ ref epoch, r.payload = .ruleTimer ref epoch := by
  unfold Fits at hf
  cases hp : r.payload with
  | ruleTimer ref epoch => exact ⟨ref, epoch, rfl⟩
  | continuation c =>
    rw [hp] at hf
    simp [hf.2.2.1] at hi
  | expireEffect actor effect stat =>
    rw [hp] at hf
    simp [show r.interval = none from hf] at hi

theorem interval_isSome_of_nextTime? {due : Instant} (hd : Schedule.nextTime? r now = some due) :
    r.interval.isSome := by
  unfold Schedule.nextTime? at hd
  cases hi : r.interval with
  | none => simp [hi] at hd
  | some i => rfl

theorem timerOf_taken (e : Engine) (h : Handle) (r : Registration Job) (now : Instant)
    (ref : RuleRef) : (e.taken h r now).timerOf ref = e.timerOf ref := by
  rw [timerOf, states_taken]
  rfl

theorem get?_deferred_taken {k : Handle} {ref : RuleRef}
    (hd : (e.taken h r now).deferred.get? k = some ref) : e.deferred.get? k = some ref := by
  unfold taken at hd
  split at hd
  · rw [SortedMap.get?_erase] at hd
    split at hd
    · cases hd
    · exact hd
  · exact hd

theorem Linked.taken (hl : e.Linked) (hr : e.job? h = some r) (now : Instant) :
    (e.taken h r now).Linked := by
  have hstays {k : Handle} {ref : RuleRef} (hne : k ≠ h) (hd : e.deferred.get? k = some ref) :
      (e.taken h r now).deferred.get? k = some ref := by
    unfold Engine.taken
    split
    · rw [SortedMap.get?_erase, if_neg hne, hd]
    · exact hd
  have hnext : (e.taken h r now).schedule.nextHandle = e.schedule.nextHandle := by
    rw [schedule_taken, Schedule.nextHandle_rearm]
  have htarget (ref : RuleRef) : (e.taken h r now).target? ref = e.target? ref :=
    target?_congr (by rw [catalog_taken])
  refine ⟨by rw [catalog_taken]; exact hl.catalog, by rw [states_taken, catalog_taken]; exact hl.states,
    ?_, ?_, ?_, ?_, by rw [waiting_taken, catalog_taken]; exact hl.waiting⟩
  · intro k q hq
    rw [job?_taken] at hq
    split at hq
    · subst k
      obtain ⟨due, hd, rfl⟩ := Option.map_eq_some_iff.mp hq
      obtain ⟨ref, epoch, hp⟩ :=
        (hl.fits h r hr).payload_of_interval (interval_isSome_of_nextTime? hd)
      have hfits := hl.fits h r hr
      simp only [Fits, hp] at hfits ⊢
      rwa [htarget, timerOf_taken]
    · refine (hl.fits k q hq).mono (fun ref _ => htarget ref) (fun ref ht => ?_) fun _ => hstays ‹_›
      rwa [timerOf_taken]
  · intro k q hq
    rw [hnext]
    rw [job?_taken] at hq
    split at hq
    · subst k
      obtain ⟨due, hd, rfl⟩ := Option.map_eq_some_iff.mp hq
      exact ⟨(hl.issued h r hr).1, Schedule.first_le_of_nextTime? (hl.issued h r hr).2 hd⟩
    · exact hl.issued k q hq
  · intro ref k hk
    rw [timerOf_taken] at hk
    obtain ⟨hlt, hjob⟩ := hl.timers ref k hk
    refine ⟨by rwa [hnext], fun q hq => ?_⟩
    obtain ⟨p, hp, hpq⟩ := job?_of_taken hr hq
    rw [← hpq]
    exact hjob p hp
  · intro k ref hd
    obtain ⟨q, c, hq, hp, hc⟩ := hl.deferred k ref (get?_deferred_taken hd)
    refine ⟨q, c, ?_, hp, hc⟩
    rw [job?_taken, if_neg, hq]
    rintro rfl
    obtain rfl := Option.some.inj (hr.symm.trans hq)
    rw [Engine.taken, hp] at hd
    simp [SortedMap.get?_erase] at hd

theorem Live.taken (hv : e.Live) (hr : e.job? h = some r) (now : Instant) :
    (e.taken h r now).Live := by
  refine hv.mono fun k q ref epoch hq hp => ⟨?_, fun hw => hw.congr (by simp) (by simp)⟩
  obtain ⟨p, hj, hpq⟩ := job?_of_taken hr hq
  exact ⟨p, hj, hpq.trans hp⟩

def Follows (e : Engine) (w : World) (job : Job) (now : Instant) (e' : Engine) : Prop :=
  match job with
  | .ruleTimer ref epoch => ∃ rule, e.target? ref = some (epoch, rule) ∧
      e' = ((Run.start e w now).offer ⟨ref.scope, epoch, rule, timerContext w ref.scope⟩).engine
  | .continuation c => e.Installed c.firing ∧ e' = ((Run.start e w now).resume c).engine
  | .expireEffect .. => e' = e

theorem follows_runJob (hl : e.Linked) (hr : e.job? h = some r)
    (hrun : runJob { e with schedule := e.schedule.rearm h r now } w h r.payload now =
      (notices, e', w')) : (e.taken h r now).Follows w r.payload now e' := by
  have hfits := hl.fits h r hr
  unfold Fits at hfits
  unfold runJob at hrun
  unfold taken
  cases hp : r.payload with
  | ruleTimer ref epoch =>
    rw [hp] at hrun hfits
    obtain ⟨rule, plan, ht, -⟩ := hfits
    have ht' : target? { e with schedule := e.schedule.rearm h r now } ref = some (epoch, rule) := ht
    simp only [ht', if_true] at hrun
    exact ⟨rule, ht', (congrArg (·.2.1) hrun).symm⟩
  | continuation c =>
    rw [hp] at hrun hfits
    have hepoch : e.catalog.epoch? c.firing.scope = some c.firing.epoch :=
      (target?_eq_some_iff.mp hfits.1).1
    simp only [hepoch, if_true] at hrun
    exact ⟨hfits.1, (congrArg (·.2.1) hrun).symm⟩
  | expireEffect actor effect stat =>
    rw [hp] at hrun
    exact (congrArg (·.2.1) hrun).symm

theorem Follows.leads {job : Job} (hf : e.Follows w job now e') :
    (∃ actor effect stat, job = .expireEffect actor effect stat ∧ e' = e) ∨
      ∃ stage run run', job.Begins stage ∧ run.engine = e ∧ run.now = now ∧
        run.engine.Installed stage.firing ∧ Run.Leads stage run run' ∧ e' = run'.engine := by
  cases job with
  | ruleTimer ref epoch =>
    obtain ⟨rule, ht, rfl⟩ := hf
    have hid := Catalog.id_of_rule? (target?_eq_some_iff.mp ht).2
    exact .inr ⟨_, _, _, .timer epoch (timerContext w ref.scope) hid, rfl, rfl,
      installed_of_target? ht _, Run.leads_offer _ _, rfl⟩
  | continuation c =>
    obtain ⟨hf, rfl⟩ := hf
    exact .inr ⟨_, _, _, .continuation c, rfl, rfl, hf, Run.leads_resume _ _, rfl⟩
  | expireEffect actor effect stat => exact .inl ⟨actor, effect, stat, rfl, hf⟩

theorem runNext?_follows (hl : e.Linked) (h : e.runNext? w now = some (notices, e', w')) :
    ∃ k r, e.job? k = some r ∧ r.due ≤ now ∧ (e.taken k r now).Follows w r.payload now e' := by
  unfold runNext? at h
  split at h
  · cases h
  rename_i k job schedule hpop
  obtain ⟨r, hr, rfl, hdue, rfl⟩ := Schedule.popDue?_eq_some hpop
  exact ⟨k, r, hr, hdue, follows_runJob hl hr (Option.some.inj h)⟩

theorem runNext?_eq_some (hl : e.Linked) (h : e.runNext? w now = some (notices, e', w')) :
    ∃ k r, e.job? k = some r ∧ r.due ≤ now ∧
      ((∃ actor effect stat, r.payload = .expireEffect actor effect stat ∧ e' = e.taken k r now) ∨
        ∃ stage run run', r.payload.Begins stage ∧ run.engine = e.taken k r now ∧ run.now = now ∧
          run.engine.Installed stage.firing ∧ Run.Leads stage run run' ∧ e' = run'.engine) := by
  obtain ⟨k, r, hr, hdue, hfollows⟩ := runNext?_follows hl h
  exact ⟨k, r, hr, hdue, hfollows.leads⟩

theorem runNext?_steps (hl : e.Linked) (h : e.runNext? w now = some (notices, e', w')) :
    ∃ k r, e.job? k = some r ∧ r.due ≤ now ∧ Steps now (e.taken k r now) e' := by
  obtain ⟨k, r, hr, hdue, ⟨_, _, _, -, rfl⟩ | ⟨stage, run, run', -, hrun, rfl, hf, hleads, rfl⟩⟩ :=
    runNext?_eq_some hl h
  · exact ⟨k, r, hr, hdue, .refl⟩
  · exact ⟨k, r, hr, hdue, hrun ▸ (hleads.steps hf).2⟩

theorem runNext?_eq_none_iff :
    e.runNext? w now = none ↔ ∀ h r, e.job? h = some r → now < r.due := by
  unfold runNext?
  rw [show (∀ h r, e.job? h = some r → now < r.due) ↔ e.schedule.popDue? now = none from
    Schedule.popDue?_eq_none_iff.symm]
  split <;> simp_all

theorem Linked.runNext? (hl : e.Linked) (h : e.runNext? w now = some (notices, e', w')) :
    e'.Linked := by
  obtain ⟨k, r, hr, -, hs⟩ := runNext?_steps hl h
  exact (hl.taken hr now).steps hs

theorem Live.runNext? (hl : e.Linked) (hv : e.Live)
    (h : e.runNext? w now = some (notices, e', w')) : e'.Live := by
  obtain ⟨k, r, hr, -, hs⟩ := runNext?_steps hl h
  exact (hv.taken hr now).steps (hl.taken hr now) hs

theorem advance_induct {motive : Engine → Prop} {budget : Nat} {told : List Notice}
    (hstep : ∀ e e' w notices w', motive e → e.runNext? w now = some (notices, e', w') → motive e')
    (h : advanceFrom budget told e w now = some (notices, e', w')) (hm : motive e) : motive e' := by
  induction budget generalizing told e w with
  | zero =>
    unfold advanceFrom at h
    split at h
    · cases h
      exact hm
    · cases h
  | succ budget ih =>
    unfold advanceFrom at h
    split at h
    · cases h
      exact hm
    · exact ih h (hstep _ _ _ _ _ hm ‹_›)

end Engine

end WorldTriggers
