import WorldTriggers.Proofs.Engine.Tally

/-!
Operations taken apart into steps, each with the rule events in it: `advance` takes one or two for every
job, and one that does not return has taken steps all the same. What every step keeps holds after any
operations.
-/

namespace WorldTriggers

def Operation.content? : Operation → Option Content
  | load c _ => some c
  | reload c _ => some c
  | _ => none

def Operation.scene? : Operation → Option (World × Instant)
  | fire w _ _ _ now => some (w, now)
  | handle w _ now => some (w, now)
  | fireRule w _ _ now => some (w, now)
  | _ => none

theorem Run.fires_resume (run : Run) (h : Handle) (c : Continuation) :
    Fires { run with visited := c.firing.ref :: run.visited } (onsets (run.resumeRuleEvents h c))
      (run.resume c) := by
  rw [resume_eq run c 0]
  exact (Passage.unfolds (Nat.zero_le run.engine.settings.maxDepth)
    (.actions ⟨c.firing, run.now, []⟩ true c.next) _).fires trivial

namespace Engine

variable {e e' : Engine} {op : Operation} {ds : List RuleEvent} {w : World} {now : Instant}

def dispatch? (e : Engine) : Operation → Option (Dispatch × Engine × World)
  | .fire w scope event context now => some (e.fire w scope event context now)
  | .handle w o now => some (e.handle w o now)
  | .fireRule w ref context now => (e.fireRule w ref context now).toOption
  | _ => none

section Offered

theorem installed_of_listeners (hsound : e.catalog.Sound) {scope : Scope} {event : EventKind}
    {context : Context} : ∀ f ∈ e.listeners scope event context, e.Installed f := by
  intro f hf
  unfold listeners at hf
  cases hi : e.catalog.get? scope with
  | none =>
    rw [hi] at hf
    cases hf
  | some i =>
    rw [hi] at hf
    obtain ⟨l, hl, rfl⟩ := List.mem_map.mp hf
    have hrules : l ∈ i.rules := (List.mem_filter.mp (List.mem_filter.mp hl).1).1
    have hrule := hsound.rule?_of_mem hi hrules
    rw [Installed, target?_eq_some_iff]
    exact ⟨by simp [Firing.ref, Catalog.epoch?, hi], hrule⟩

theorem listeners_congr (h : e'.catalog = e.catalog) (scope : Scope) (event : EventKind)
    (context : Context) : e'.listeners scope event context = e.listeners scope event context := by
  unfold listeners
  rw [h]

theorem installed_of_offered (hsound : e.catalog.Sound) (op : Operation) :
    ∀ f ∈ e.offered op, e.Installed f := by
  cases op with
  | fire => exact installed_of_listeners hsound
  | handle w o now =>
    cases o with
    | commandAttempted actor room text =>
      unfold offered
      dsimp only
      split
      · split
        · intro f hf
          rcases List.mem_append.mp hf with hf | hf <;> exact installed_of_listeners hsound f hf
        · exact installed_of_listeners hsound
      · exact installed_of_listeners hsound
    | roomEntered | roomExited | areaEntered | areaExited => exact installed_of_listeners hsound
  | fireRule w ref context now =>
    unfold offered
    dsimp only
    split
    · intro f hf
      obtain rfl := List.mem_singleton.mp hf
      exact installed_of_target? ‹_› context
    · exact List.forall_mem_nil _
  | load | reload | unload | setEnabled | advance | restore => exact List.forall_mem_nil _

theorem fires_attempts {fs : List Firing} (run : Run) (depth : Nat)
    (hfs : ∀ f ∈ fs, run.engine.Installed f) :
    Run.Fires run (onsets (Run.attemptsRuleEvents depth 0 fs run)) (Run.attempts depth fs run) :=
  (Passage.unfolds (Nat.zero_le depth) (.offers fs) run).fires hfs

theorem offers_attempts {fs : List Firing} {run : Run} (depth : Nat)
    (hfs : ∀ f ∈ fs, run.engine.Installed f) : Run.Offers run (Run.attempts depth fs run) := by
  induction fs generalizing run with
  | nil => exact .refl
  | cons f fs ih =>
    obtain ⟨hf, hrest⟩ := List.forall_mem_cons.mp hfs
    have hleads := Run.leads_attempt depth f run
    refine .head ⟨f, hf, hleads⟩ (ih fun g hg => ?_)
    exact (hrest g hg).congr (hleads.steps hf).2.catalog

theorem fireIn_eq {run : Run} (hsound : run.engine.catalog.Sound) (scope : Scope) (event : EventKind)
    (context : Context) : run.fireIn scope event context =
      Run.attempts run.engine.settings.maxDepth (run.engine.listeners scope event context) run := by
  have hinstalled : ∀ f ∈ run.engine.listeners scope event context, run.engine.Installed f :=
    installed_of_listeners hsound
  unfold Run.fireIn
  unfold listeners at hinstalled ⊢
  cases hi : run.engine.catalog.get? scope with
  | none => rfl
  | some i =>
    rw [hi] at hinstalled
    -- The depth that an offer allows is read from the engine at the time, which stays the same.
    have hfold (ls : List LoadedRule) (mid : Run) (hsettings : mid.engine.settings = run.engine.settings)
        (hls : ∀ f ∈ ls.map fun l => (⟨scope, i.epoch, l.rule, context⟩ : Firing),
          mid.engine.Installed f) :
        ls.foldl (fun run l => run.offer ⟨scope, i.epoch, l.rule, context⟩) mid =
          Run.attempts run.engine.settings.maxDepth
            (ls.map fun l => ⟨scope, i.epoch, l.rule, context⟩) mid := by
      induction ls generalizing mid with
      | nil => rfl
      | cons l rest ih =>
        obtain ⟨hf, hrest⟩ := List.forall_mem_cons.mp hls
        have hsteps := ((Run.leads_offer mid _).steps hf).2
        have hoffer : mid.offer ⟨scope, i.epoch, l.rule, context⟩ =
            Run.attempt run.engine.settings.maxDepth ⟨scope, i.epoch, l.rule, context⟩ mid := by
          rw [Run.offer, hsettings]
        rw [List.foldl_cons, ih _ (hsteps.settings.trans hsettings)
          fun f hf => (hrest f hf).congr hsteps.catalog, hoffer]
        rfl
    exact hfold _ run rfl hinstalled

theorem dispatch?_eq (hsound : e.catalog.Sound) (hop : op.scene? = some (w, now)) :
    e.dispatch? op = none ∧ e.offered op = [] ∧ e.perform op = some e ∨
      e.dispatch? op =
        some (Run.attempts e.settings.maxDepth (e.offered op) (Run.start e w now)).finish := by
  have hfire (scope : Scope) (event : EventKind) (context : Context) :
      (Run.start e w now).fireIn scope event context =
        Run.attempts e.settings.maxDepth (e.listeners scope event context) (Run.start e w now) :=
    fireIn_eq hsound scope event context
  have hthen (fs : List Firing) (hfs : ∀ f ∈ fs, e.Installed f) (scope : Scope) (event : EventKind)
      (context : Context) :
      (Run.attempts e.settings.maxDepth fs (Run.start e w now)).fireIn scope event context =
        Run.attempts e.settings.maxDepth (fs ++ e.listeners scope event context)
          (Run.start e w now) := by
    have hfires := fires_attempts (Run.start e w now) e.settings.maxDepth hfs
    have hsecond := fireIn_eq (by rw [hfires.catalog]; exact hsound) scope event context
    rw [hfires.settings, listeners_congr hfires.catalog] at hsecond
    rw [hsecond, Run.attempts_append]
    rfl
  cases op with
  | fire w' scope event context now' =>
    cases hop
    exact .inr (congrArg (fun run => some (Run.finish run)) (hfire scope event context))
  | handle w' o now' =>
    cases hop
    refine .inr ?_
    unfold dispatch? handle offered
    dsimp only
    cases o with
    | roomEntered | roomExited | areaEntered | areaExited =>
      exact congrArg (fun run => some (Run.finish run)) (hfire ..)
    | commandAttempted actor room text =>
      cases harea : (roomContext w actor room).area with
      | none => simp only [harea, hfire]
      | some area =>
        simp only [harea, hfire]
        split
        · rw [hthen _ (installed_of_listeners hsound)]
        · rfl
  | fireRule w' ref context now' =>
    cases hop
    unfold dispatch? offered perform fireRule
    dsimp only
    cases ht : e.target? ref with
    | none =>
      cases htarget : e.target ref with
      | error err => exact .inl ⟨rfl, rfl, rfl⟩
      | ok t => simp [target_eq_ok_iff.mp htarget] at ht
    | some t =>
      rw [target_eq_ok_iff.mpr ht]
      exact .inr rfl
  | load | reload | unload | setEnabled | advance | restore => cases hop

theorem perform_of_dispatch? {d : Dispatch} {w' : World} (h : e.dispatch? op = some (d, e', w')) :
    e.perform op = some e' := by
  cases op with
  | fire | handle => exact congrArg (·.map (·.2.1)) h
  | fireRule w ref context now =>
    unfold dispatch? at h
    unfold perform
    dsimp only at h ⊢
    cases hfire : e.fireRule w ref context now with
    | ok r =>
      rw [hfire] at h
      obtain rfl := Option.some.inj h
      rfl
    | error err =>
      rw [hfire] at h
      cases h
  | load | reload | unload | setEnabled | advance | restore => cases h

theorem perform_of_scene? (hsound : e.catalog.Sound) (hop : op.scene? = some (w, now)) :
    e.perform op =
      some (Run.attempts e.settings.maxDepth (e.offered op) (Run.start e w now)).engine := by
  rcases dispatch?_eq hsound hop with ⟨-, hoffered, hperform⟩ | hsome
  · rw [hoffered]
    exact hperform
  · exact perform_of_dispatch? hsome

theorem time?_of_scene? (hop : op.scene? = some (w, now)) : op.time? = some now := by
  cases op <;> cases hop <;> rfl

theorem ruleEventsOf_of_scene? (hop : op.scene? = some (w, now)) :
    e.ruleEventsOf op = e.offeredRuleEvents w now (e.offered op) := by
  cases op <;> cases hop <;> rfl

end Offered

/-- A part of an operation that nothing comes between, with what it does. -/
inductive OperationStep (op : Operation) : Engine → List RuleEvent → Engine → Prop where
  | loaded {e : Engine} {c : Content} {now : Instant} (hop : op.content? = some c)
      (ht : op.time? = some now) (hrules : Content.Sound c.rules)
      (hc : e.catalog.contains c.scope = false) : OperationStep op e [] (e.install c [] now).2
  | replaced {e : Engine} {c : Content} {now : Instant} (hop : op.content? = some c)
      (ht : op.time? = some now) (hrules : Content.Sound c.rules) :
      OperationStep op e (e.removal c.scope) (e.reload c now).2
  | removed {e : Engine} {scope : Scope} (hop : op = .unload scope)
      (hc : e.catalog.contains scope = true) : OperationStep op e [.removed scope] (e.detach scope)
  | switched {e e' : Engine} {ref : RuleRef} {enabled : Bool} {now : Instant} {notice : Notice}
      (ht : op.time? = some now) (h : e.setEnabled ref enabled now = .ok (notice, e')) :
      OperationStep op e [.switched ref enabled] e'
  | offered {e : Engine} {now : Instant} {fs : List Firing} (ht : op.time? = some now) (w : World)
      (hfs : ∀ f ∈ fs, e.Installed f) :
      OperationStep op e (e.offeredRuleEvents w now fs)
        (Run.attempts e.settings.maxDepth fs (Run.start e w now)).engine
  | popped {e : Engine} {k : Handle} {r : Registration Job} {now : Instant} (ht : op.time? = some now)
      (hr : e.job? k = some r) (hdue : r.due ≤ now) (hp : ∀ c, r.payload ≠ .continuation c) :
      OperationStep op e [] (e.taken k r now)
  | woken {e : Engine} {k : Handle} {r : Registration Job} {c : Continuation} {now : Instant}
      (ht : op.time? = some now) (w : World) (hr : e.job? k = some r) (hdue : r.due ≤ now)
      (hp : r.payload = .continuation c) :
      OperationStep op e ((Run.start (e.taken k r now) w now).resumeRuleEvents k c)
        ((Run.start (e.taken k r now) w now).resume c).engine
  | restored {e : Engine} {records : List Record} {r : Record} (hop : op = .restore records)
      (hr : r ∈ records) : OperationStep op e [] (e.restoreOne r).2

theorem steps_attempts {fs : List Firing} (hfs : ∀ f ∈ fs, e.Installed f) (depth : Nat) (w : World)
    (now : Instant) : Steps now e (Run.attempts depth fs (Run.start e w now)).engine := by
  have hoffers : Run.Offers (Run.start e w now) (Run.attempts depth fs (Run.start e w now)) :=
    offers_attempts depth hfs
  exact hoffers.steps.2

section Resumed

variable {k : Handle} {r : Registration Job} {c : Continuation}

theorem Linked.installed_taken (hl : e.Linked) (hr : e.job? k = some r)
    (hp : r.payload = .continuation c) (now : Instant) : (e.taken k r now).Installed c.firing := by
  have hfits := hl.fits k r hr
  simp only [Fits, hp] at hfits
  exact hfits.1.congr (catalog_taken ..)

theorem Linked.steps_resume (hl : e.Linked) (hr : e.job? k = some r)
    (hp : r.payload = .continuation c) (w : World) (now : Instant) :
    Steps now (e.taken k r now) ((Run.start (e.taken k r now) w now).resume c).engine := by
  have hleads := Run.leads_resume (Run.start (e.taken k r now) w now) c
  exact (hleads.steps (hl.installed_taken hr hp now)).2

end Resumed

theorem Linked.operationStep (hl : e.Linked) (h : OperationStep op e ds e') : e'.Linked := by
  cases h with
  | loaded hop ht hrules hc => exact hl.install hc hrules (carries_nil _) _
  | replaced hop ht hrules => exact hl.reload hrules _
  | removed hop hc => exact hl.detach _
  | switched ht h => exact hl.setEnabled h
  | offered ht w hfs => exact hl.steps (steps_attempts hfs _ w _)
  | popped ht hr hdue hp => exact hl.taken hr _
  | woken ht w hr hdue hp => exact (hl.taken hr _).steps (hl.steps_resume hr hp w _)
  | restored hop hr => exact hl.restoreOne _

theorem OperationStep.settings (hl : e.Linked) (h : OperationStep op e ds e') : e'.settings = e.settings := by
  cases h with
  | loaded hop ht hrules hc => exact settings_install hrules hl.catalog
  | replaced hop ht hrules => exact settings_install hrules (hl.detach _).catalog
  | removed hop hc => rfl
  | switched ht h => exact settings_of_setEnabled h
  | offered ht w hfs => exact (fires_attempts _ _ hfs).settings
  | popped => exact settings_taken ..
  | @woken k r c now => exact (Run.fires_resume _ k c).settings.trans (settings_taken ..)
  | restored => exact settings_restoreOne ..

inductive OperationSteps (op : Operation) : Engine → List RuleEvent → Engine → Prop where
  | nil (e : Engine) : OperationSteps op e [] e
  | cons {e mid e' : Engine} {ds ds' : List RuleEvent} (h : OperationStep op e ds mid)
      (h' : OperationSteps op mid ds' e') :
      OperationSteps op e (ds ++ ds') e'

namespace OperationSteps

variable {mid : Engine} {ds' : List RuleEvent}

theorem single (h : OperationStep op e ds e') : OperationSteps op e ds e' := by
  have hsingle := OperationSteps.cons h (.nil e')
  rwa [List.append_nil] at hsingle

theorem trans (h : OperationSteps op e ds mid) (h' : OperationSteps op mid ds' e') :
    OperationSteps op e (ds ++ ds') e' := by
  induction h with
  | nil => exact h'
  | cons h _ ih =>
    rw [List.append_assoc]
    exact .cons h (ih h')

end OperationSteps

theorem Linked.operationSteps (hl : e.Linked) (h : OperationSteps op e ds e') : e'.Linked := by
  induction h with
  | nil => exact hl
  | cons h _ ih => exact ih (hl.operationStep h)

section Jobs

variable {w' : World} {notices : List Notice}

theorem nextRuleEvents_of_popDue? {k : Handle} {job : Job} {schedule : Schedule Job}
    (h : e.schedule.popDue? now = some (k, job, schedule)) :
    e.nextRuleEvents w now = jobRuleEvents { e with schedule } w k job now := by
  rw [nextRuleEvents, h]

theorem next_cases (hl : e.Linked) (h : e.runNext? w now = some (notices, e', w')) :
    ∃ k r, e.job? k = some r ∧ r.due ≤ now ∧
      ((∃ fs, (∀ c, r.payload ≠ .continuation c) ∧ (∀ f ∈ fs, (e.taken k r now).Installed f) ∧
          e.nextRuleEvents w now = (e.taken k r now).offeredRuleEvents w now fs ∧
          e' = (Run.attempts e.settings.maxDepth fs (Run.start (e.taken k r now) w now)).engine) ∨
        ∃ c, r.payload = .continuation c ∧
          e.nextRuleEvents w now = (Run.start (e.taken k r now) w now).resumeRuleEvents k c ∧
          e' = ((Run.start (e.taken k r now) w now).resume c).engine) := by
  unfold runNext? at h
  split at h
  · cases h
  rename_i k job schedule hpop
  obtain ⟨r, hr, rfl, hdue, rfl⟩ := Schedule.popDue?_eq_some hpop
  refine ⟨k, r, hr, hdue, ?_⟩
  have hfits := hl.fits k r hr
  unfold Fits at hfits
  have hrun := Option.some.inj h
  rw [nextRuleEvents_of_popDue? hpop]
  unfold runJob at hrun
  unfold jobRuleEvents taken
  cases hp : r.payload with
  | ruleTimer ref epoch =>
    rw [hp] at hrun hfits
    obtain ⟨rule, plan, ht, -⟩ := hfits
    have ht' : target? { e with schedule := e.schedule.rearm k r now } ref = some (epoch, rule) := ht
    simp only [ht', if_true] at hrun ⊢
    refine .inl ⟨[⟨ref.scope, epoch, rule, timerContext w ref.scope⟩], by simp, ?_, rfl, ?_⟩
    · intro f hf
      obtain rfl := List.mem_singleton.mp hf
      exact installed_of_target? ht' _
    · exact (congrArg (·.2.1) hrun).symm
  | continuation c =>
    rw [hp] at hrun hfits
    have hepoch : e.catalog.epoch? c.firing.scope = some c.firing.epoch :=
      (target?_eq_some_iff.mp hfits.1).1
    simp only [hepoch, if_true] at hrun ⊢
    exact .inr ⟨c, rfl, rfl, (congrArg (·.2.1) hrun).symm⟩
  | expireEffect actor effect stat =>
    rw [hp] at hrun
    refine .inl ⟨[], by simp, List.forall_mem_nil _, rfl, (congrArg (·.2.1) hrun).symm⟩

theorem operationSteps_next (hl : e.Linked) (ht : op.time? = some now)
    (h : e.runNext? w now = some (notices, e', w')) : OperationSteps op e (e.nextRuleEvents w now) e' := by
  obtain ⟨k, r, hr, hdue, ⟨fs, hp, hfs, hruleEvents, rfl⟩ | ⟨c, hp, hruleEvents, rfl⟩⟩ := next_cases hl h
  · have hoffered : OperationStep op (e.taken k r now) ((e.taken k r now).offeredRuleEvents w now fs) _ :=
      .offered ht w hfs
    rw [settings_taken] at hoffered
    rw [hruleEvents]
    exact .cons (.popped ht hr hdue hp) (.single hoffered)
  · rw [hruleEvents]
    exact .single (.woken ht w hr hdue hp)

theorem exists_operationSteps_advance (op : Operation) (hl : e.Linked) (ht : op.time? = some now)
    (budget : Nat)
    (told : List Notice) (w : World) : ∃ e', OperationSteps op e (advanceRuleEvents budget e w now) e' ∧
      ∀ r, advanceFrom budget told e w now = some r → r.2.1 = e' := by
  induction budget generalizing e told w with
  | zero =>
    unfold advanceRuleEvents advanceFrom
    cases hnext : e.runNext? w now with
    | none => exact ⟨e, .nil e, by simp⟩
    | some next =>
      obtain ⟨notices, e', w'⟩ := next
      -- The last job is run, although there is no budget left to return from it.
      refine ⟨e', ?_, by simp⟩
      dsimp only
      rw [List.append_nil]
      exact operationSteps_next hl ht hnext
  | succ budget ih =>
    unfold advanceRuleEvents advanceFrom
    cases hnext : e.runNext? w now with
    | none => exact ⟨e, .nil e, by simp⟩
    | some next =>
      obtain ⟨notices, e', w'⟩ := next
      obtain ⟨e'', hopSteps, hresult⟩ := ih (hl.runNext? hnext) (notices.reverseAux told) w'
      exact ⟨e'', (operationSteps_next hl ht hnext).trans hopSteps, hresult⟩

end Jobs

theorem operationSteps_restore {records rs : List Record} (h : ∀ r ∈ rs, r ∈ records) :
    OperationSteps (.restore records) e [] (e.restore rs).2 := by
  induction rs generalizing e with
  | nil => exact .nil e
  | cons r rs ih =>
    obtain ⟨hr, hrest⟩ := List.forall_mem_cons.mp h
    exact .cons (.restored rfl hr) (ih hrest)

theorem operationSteps_dispatch (hsound : e.catalog.Sound) (hop : op.scene? = some (w, now)) :
    ∃ e', OperationSteps op e (e.ruleEventsOf op) e' ∧ e.perform op = some e' := by
  refine ⟨_, .single ?_, perform_of_scene? hsound hop⟩
  rw [ruleEventsOf_of_scene? hop]
  exact .offered (time?_of_scene? hop) w (installed_of_offered hsound op)

theorem exists_operationSteps (hl : e.Linked) (ha : op.Authored) :
    ∃ e', OperationSteps op e (e.ruleEventsOf op) e' ∧ ∀ d, e.perform op = some d → d = e' := by
  have hdispatch {w : World} {now : Instant} (hop : op.scene? = some (w, now)) :
      ∃ e', OperationSteps op e (e.ruleEventsOf op) e' ∧ ∀ d, e.perform op = some d → d = e' := by
    obtain ⟨e', hopSteps, hperform⟩ := operationSteps_dispatch hl.catalog hop
    refine ⟨e', hopSteps, fun d hd => ?_⟩
    rw [hperform] at hd
    exact (Option.some.inj hd).symm
  cases op with
  | load c now =>
    refine ⟨(e.load c now).2, .single ?_, fun d hd => (Option.some.inj hd).symm⟩
    rcases load_eq_install e c now with ⟨heq, hc⟩ | heq
    · have hremoval : e.removal c.scope = [] := by simp [removal, hc]
      rw [heq, ruleEventsOf, hremoval]
      exact .loaded rfl rfl ha.sound hc
    · rw [heq]
      exact .replaced rfl rfl ha.sound
  | reload c now =>
    exact ⟨(e.reload c now).2, .single (.replaced rfl rfl ha.sound),
      fun d hd => (Option.some.inj hd).symm⟩
  | unload scope =>
    refine ⟨(e.unload scope).2, ?_, fun d hd => (Option.some.inj hd).symm⟩
    rw [show e.ruleEventsOf (.unload scope) = e.removal scope from rfl]
    unfold removal unload
    cases hc : e.catalog.contains scope with
    | true => exact .single (.removed rfl hc)
    | false => exact .nil e
  | setEnabled ref enabled now =>
    unfold ruleEventsOf perform
    dsimp only
    cases hset : e.setEnabled ref enabled now with
    | ok set =>
      obtain ⟨notice, e'⟩ := set
      exact ⟨e', .single (.switched rfl hset), fun d hd => (Option.some.inj hd).symm⟩
    | error err => exact ⟨e, .nil e, fun d hd => (Option.some.inj hd).symm⟩
  | fire | handle | fireRule => exact hdispatch rfl
  | advance budget w now =>
    obtain ⟨e', hopSteps, hresult⟩ :=
      exists_operationSteps_advance (.advance budget w now) hl rfl budget [] w
    refine ⟨e', hopSteps, fun d hd => ?_⟩
    obtain ⟨r, hr, rfl⟩ := Option.map_eq_some_iff.mp hd
    exact hresult r hr
  | restore records =>
    exact ⟨_, operationSteps_restore fun _ h => h, fun d hd => (Option.some.inj hd).symm⟩

theorem ruleEventsSince_induct {motive : List RuleEvent → Engine → Prop} {later : List Operation}
    (hl : e.Linked) (ha : ∀ op ∈ later, op.Authored)
    (hstep : ∀ op ∈ later, ∀ ds d ds' d', d.Linked → OperationStep op d ds' d' → motive ds d →
      motive (ds ++ ds') d') (hm : motive [] e) :
    ∃ e', motive (e.ruleEventsSince later) e' ∧ ∀ d, e.performAll? later = some d → d = e' := by
  have hopSteps (op : Operation) (hop : op ∈ later) (ds : List RuleEvent) {d d' : Engine}
      {ds' : List RuleEvent}
      (hd : d.Linked) (h : OperationSteps op d ds' d') (hm : motive ds d) : motive (ds ++ ds') d' := by
    induction h generalizing ds with
    | nil => rwa [List.append_nil]
    | cons h _ ih =>
      rw [← List.append_assoc]
      exact ih _ (hd.operationStep h) (hstep op hop ds _ _ _ hd h hm)
  suffices hall : ∃ e', e'.Linked ∧ motive (e.ruleEventsSince later) e' ∧
      ∀ d, e.performAll? later = some d → d = e' by
    obtain ⟨e', -, h⟩ := hall
    exact ⟨e', h⟩
  clear hstep
  induction later with
  | nil => exact ⟨e, hl, hm, fun d hd => (Option.some.inj hd).symm⟩
  | cons op later ih =>
    obtain ⟨hop, hlater⟩ := List.forall_mem_cons.mp ha
    obtain ⟨mid, hmid, hmm, hlast⟩ :=
      ih hlater fun op hop => hopSteps op (List.mem_cons_of_mem _ hop)
    rw [ruleEventsSince, performAll?]
    cases hp : e.performAll? later with
    | none =>
      -- Nothing is done after an operation that has not returned.
      refine ⟨mid, hmid, ?_, fun d hd => by cases hd⟩
      rwa [List.append_nil]
    | some d =>
      obtain rfl := hlast d hp
      obtain ⟨e', ht, hd⟩ := exists_operationSteps hmid hop
      exact ⟨e', hmid.operationSteps ht, hopSteps op List.mem_cons_self _ hmid ht hmm, hd⟩

theorem Reaches.induct_operationSteps {motive : List RuleEvent → Engine → Prop} {settings : Settings}
    {ops : List Operation} (h : Reaches settings ops e) (hm : motive [] (ofSettings settings))
    (hstep : ∀ op ∈ ops, ∀ ds d ds' d', d.Linked → OperationStep op d ds' d' → motive ds d →
      motive (ds ++ ds') d') : motive (history settings ops) e := by
  obtain ⟨ha, he⟩ := reaches_iff.mp h
  obtain ⟨e', hm', hlast⟩ := ruleEventsSince_induct (linked_ofSettings settings) ha hstep hm
  rw [hlast e (by rw [performAll?_ofSettings, he])]
  exact hm'

theorem Reaches.settings {settings : Settings} {ops : List Operation} (h : Reaches settings ops e) :
    e.settings = settings :=
  h.induct_operationSteps (motive := fun _ e => e.settings = settings) rfl
    fun _ _ _ _ _ _ hl ht hm => (ht.settings hl).trans hm

end Engine

end WorldTriggers
