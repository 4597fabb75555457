import WorldTriggers.Proofs.Engine.ActionSteps
import WorldTriggers.Proofs.Engine.Expiries

/-!
Operations on worlds, taken apart into steps, each of which is of one world event at most. What every step
keeps is true at each point of the history of an engine (`worldHistory_induct`).
-/

namespace WorldTriggers.Engine

open Run

variable {e e' mid : Engine} {w w' v : World} {op : Operation} {ms ms' : List WorldEvent} {now : Instant}

inductive WorldStep (op : Operation) : Engine → World → List WorldEvent → Engine → World → Prop where
  | aside {e e' : Engine} (hop : op.world? = none) (ha : op.Authored) (hp : e.perform op = some e')
      (w : World) : WorldStep op e w [] e' w
  | runSteps {run run' : Run} {ms : List WorldEvent} (ht : op.time? = some run.now)
      (h : ActionStep run ms run') : WorldStep op run.engine run.world ms run'.engine run'.world
  | taken {e : Engine} {k : Handle} {r : Registration Job} {now : Instant} (ht : op.time? = some now)
      (hr : e.job? k = some r) (hdue : r.due ≤ now) (hp : r.payload.isExpiry = false) (w : World) :
      WorldStep op e w [] (e.taken k r now) w
  | ended {e : Engine} {k : Handle} {r : Registration Job} {budget : Nat} {u : World} {now : Instant}
      {actor : ActorId} {effect : String} {stat : Option StatChange}
      (hop : op = .advance budget u now) (hr : e.job? k = some r) (hdue : r.due ≤ now)
      (hp : r.payload = .expireEffect actor effect stat) (w : World) :
      WorldStep op e w [.ended actor effect stat now w] (e.taken k r now)
        (expireEffect w actor effect stat).2

inductive WorldSteps (op : Operation) : Engine → World → List WorldEvent → Engine → World → Prop where
  | refl (e : Engine) (w : World) : WorldSteps op e w [] e w
  | head {e mid e' : Engine} {w v w' : World} {ms ms' : List WorldEvent} (h : WorldStep op e w ms mid v)
      (h' : WorldSteps op mid v ms' e' w') : WorldSteps op e w (ms ++ ms') e' w'

namespace WorldStep

theorem linked (hl : e.Linked) (h : WorldStep op e w ms e' w') : e'.Linked := by
  cases h with
  | aside hop ha hp =>
    cases performs_of_perform hl.catalog hp with
    | unchanged => exact hl
    | loaded c now => exact hl.load ha.sound now
    | reloaded c now => exact hl.reload ha.sound now
    | unloaded scope => exact hl.detach scope
    | switched h => exact hl.setEnabled h
    | offered ht h => exact Linked.offers hl h
    | advanced => cases hop
    | restored records =>
      exact restore_induct (motive := Engine.Linked) records (fun _ r h => h.restoreOne r) hl
  | runSteps ht h => exact hl.steps h.runSteps.steps
  | taken ht hr => exact hl.taken hr _
  | ended hop hr => exact hl.taken hr _

theorem world (h : WorldStep op e w ms e' w') : w' = WorldEvent.worldAfter w ms := by
  cases h with
  | aside | taken | ended => rfl
  | runSteps ht h => exact h.world

theorem eq_nil_or_single (h : WorldStep op e w ms e' w') : ms = [] ∨ ∃ m, ms = [m] := by
  cases h with
  | aside | taken => exact .inl rfl
  | runSteps ht h =>
    cases h with
    | told | entered | deferred => exact .inl rfl
    | acted => exact .inr ⟨_, rfl⟩
  | ended => exact .inr ⟨_, rfl⟩

end WorldStep

namespace WorldSteps

theorem single (h : WorldStep op e w ms e' w') : WorldSteps op e w ms e' w' := by
  have hsingle := WorldSteps.head h (.refl e' w')
  rwa [List.append_nil] at hsingle

theorem trans (h : WorldSteps op e w ms mid v) (h' : WorldSteps op mid v ms' e' w') :
    WorldSteps op e w (ms ++ ms') e' w' := by
  induction h with
  | refl => exact h'
  | head h _ ih =>
    rw [List.append_assoc]
    exact .head h (ih h')

theorem linked (hl : e.Linked) (h : WorldSteps op e w ms e' w') : e'.Linked := by
  induction h with
  | refl => exact hl
  | head h _ ih => exact ih (h.linked hl)

theorem world (h : WorldSteps op e w ms e' w') : w' = WorldEvent.worldAfter w ms := by
  induction h with
  | refl => rfl
  | head h _ ih => rw [ih, h.world, WorldEvent.worldAfter_append]

end WorldSteps

theorem worldSteps_of_actionSteps {run run' : Run} (ht : op.time? = some run.now)
    (h : ActionSteps run ms run') :
    WorldSteps op run.engine run.world ms run'.engine run'.world := by
  induction h with
  | refl => exact .refl _ _
  | @head run mid run' ms ms' h h' ih =>
    have hnow := h.runSteps.now
    exact .head (.runSteps ht h) (ih (by rw [hnow, ht]))

theorem nextWorldEvents_of_popDue? {k : Handle} {job : Job} {schedule : Schedule Job}
    (h : e.schedule.popDue? now = some (k, job, schedule)) :
    e.nextWorldEvents w now = jobWorldEvents { e with schedule } w k job now := by
  rw [nextWorldEvents, h]

section Job

variable {k : Handle} {r : Registration Job} {notices : List Notice}

structure JobRun (e : Engine) (k : Handle) (r : Registration Job) (now : Instant) (w : World)
    (ms : List WorldEvent) (result : List Notice × Engine × World) (run run' : Run) : Prop where
  engine : run.engine = e.taken k r now
  world : run.world = w
  now : run.now = now
  notices : run.notices = []
  actionSteps : ActionSteps run ms run'
  result : (run'.notices, run'.engine, run'.world) = result

theorem JobRun.worldSteps {result : List Notice × Engine × World} {run run' : Run}
    (h : JobRun e k r now w ms result run run') (ht : op.time? = some now)
    (hr : e.job? k = some r) (hdue : r.due ≤ now) (hp : r.payload.isExpiry = false) :
    WorldSteps op e w ms result.2.1 result.2.2 := by
  obtain ⟨hengine, rfl, rfl, -, hs, rfl⟩ := h
  have hrest := worldSteps_of_actionSteps ht hs
  rw [hengine] at hrest
  exact .head (.taken ht hr hdue hp run.world) hrest

theorem jobRun_ruleTimer {ref : RuleRef} {epoch : Nat} (hl : e.Linked)
    (hactions : e.settings.actions = .builtin) (hr : e.job? k = some r)
    (hp : r.payload = .ruleTimer ref epoch) : ∃ run run', JobRun e k r now w
      (jobWorldEvents { e with schedule := e.schedule.rearm k r now } w k (.ruleTimer ref epoch) now)
      (runJob { e with schedule := e.schedule.rearm k r now } w k (.ruleTimer ref epoch) now)
      run run' := by
  have hfits := hl.fits k r hr
  unfold Fits at hfits
  rw [hp] at hfits
  obtain ⟨rule, plan, htarget, -⟩ := hfits
  have htarget : target? { e with schedule := e.schedule.rearm k r now } ref = some (epoch, rule) :=
    htarget
  have htake : e.taken k r now = { e with schedule := e.schedule.rearm k r now } := by
    rw [Engine.taken, hp]
  have hinstalled : ∀ f ∈ [Firing.mk ref.scope epoch rule (timerContext w ref.scope)],
      Engine.Installed { e with schedule := e.schedule.rearm k r now } f := by
    intro f hf
    obtain rfl := List.mem_singleton.mp hf
    exact installed_of_target? htarget _
  have hs : ActionSteps (Run.start { e with schedule := e.schedule.rearm k r now } w now) _ _ :=
    actionSteps_attempts e.settings.maxDepth hactions hinstalled
  unfold runJob jobWorldEvents
  simp only [htarget, if_true]
  exact ⟨_, _, htake.symm, rfl, rfl, rfl, hs, rfl⟩

theorem jobRun_continuation {c : Continuation} (hl : e.Linked)
    (hactions : e.settings.actions = .builtin) (hr : e.job? k = some r)
    (hp : r.payload = .continuation c) : ∃ run run', JobRun e k r now w
      (jobWorldEvents { e with schedule := e.schedule.rearm k r now } w k (.continuation c) now)
      (runJob { e with schedule := e.schedule.rearm k r now } w k (.continuation c) now) run run' := by
  let d : Engine := { e with schedule := e.schedule.rearm k r now, deferred := e.deferred.erase k }
  have htake : e.taken k r now = d := by rw [Engine.taken, hp]
  have hinstalled : d.Installed c.firing := htake ▸ hl.installed_taken hr hp now
  have hfits := hl.fits k r hr
  unfold Fits at hfits
  rw [hp] at hfits
  have hepoch : e.catalog.epoch? c.firing.scope = some c.firing.epoch :=
    (target?_eq_some_iff.mp hfits.1).1
  have hs := actionSteps_resume (Run.start d w now) hactions hinstalled
  unfold runJob jobWorldEvents
  simp only [hepoch, if_true]
  exact ⟨_, _, htake.symm, rfl, rfl, rfl, hs, rfl⟩

theorem next_of_runNext? (hl : e.Linked)
    (hactions : e.settings.actions = .builtin) (h : e.runNext? w now = some (notices, e', w')) :
    ∃ k r, e.job? k = some r ∧ r.due ≤ now ∧
      ((∃ actor effect stat, r.payload = .expireEffect actor effect stat ∧
          e.nextWorldEvents w now = [.ended actor effect stat now w] ∧
          (notices, w') = expireEffect w actor effect stat ∧ e' = e.taken k r now) ∨
        r.payload.isExpiry = false ∧
          ∃ run run', JobRun e k r now w (e.nextWorldEvents w now) (notices, e', w') run run') := by
  unfold runNext? at h
  split at h
  · cases h
  rename_i k job schedule hpop
  obtain ⟨r, hr, rfl, hdue, rfl⟩ := Schedule.popDue?_eq_some hpop
  rw [nextWorldEvents_of_popDue? hpop, ← Option.some.inj h]
  refine ⟨k, r, hr, hdue, ?_⟩
  cases hp : r.payload with
  | ruleTimer ref epoch => exact .inr ⟨rfl, jobRun_ruleTimer hl hactions hr hp⟩
  | continuation c => exact .inr ⟨rfl, jobRun_continuation hl hactions hr hp⟩
  | expireEffect actor effect stat =>
    rw [hp] at h
    obtain ⟨rfl, rfl, rfl⟩ := Option.some.inj h
    refine .inl ⟨actor, effect, stat, rfl, rfl, rfl, ?_⟩
    rw [Engine.taken, hp]

theorem worldSteps_next {budget : Nat} {u : World} (hl : e.Linked)
    (hactions : e.settings.actions = .builtin) (hop : op = .advance budget u now)
    (h : e.runNext? w now = some (notices, e', w')) :
    WorldSteps op e w (e.nextWorldEvents w now) e' w' := by
  have ht : op.time? = some now := by
    rw [hop]
    rfl
  obtain ⟨k, r, hr, hdue,
      ⟨actor, effect, stat, hp, hworldEvents, hexpire, rfl⟩ | ⟨hp, run, run', hjobRun⟩⟩ :=
    next_of_runNext? hl hactions h
  · rw [hworldEvents, show w' = (expireEffect w actor effect stat).2 from congrArg Prod.snd hexpire]
    exact .single (.ended hop hr hdue hp w)
  · exact hjobRun.worldSteps ht hr hdue hp

end Job

theorem settings_of_runNext? {notices : List Notice} (hl : e.Linked)
    (h : e.runNext? w now = some (notices, e', w')) : e'.settings = e.settings := by
  obtain ⟨k, r, -, -, hs⟩ := runNext?_steps hl h
  rw [hs.settings, settings_taken]

theorem exists_worldSteps_advance {budget₀ : Nat} {u : World} (hl : e.Linked)
    (hactions : e.settings.actions = .builtin) (hop : op = .advance budget₀ u now) (budget : Nat)
    (told : List Notice) (w : World) :
    ∃ e' w', WorldSteps op e w (advanceWorldEvents budget e w now) e' w' ∧
      ∀ r, advanceFrom budget told e w now = some r → r.2 = (e', w') := by
  induction budget generalizing e told w with
  | zero =>
    unfold advanceWorldEvents advanceFrom
    cases hnext : e.runNext? w now with
    | none => exact ⟨e, w, .refl e w, by simp⟩
    | some next =>
      obtain ⟨notices, e', w'⟩ := next
      refine ⟨e', w', ?_, by simp⟩
      dsimp only
      rw [List.append_nil]
      exact worldSteps_next hl hactions hop hnext
  | succ budget ih =>
    unfold advanceWorldEvents advanceFrom
    cases hnext : e.runNext? w now with
    | none => exact ⟨e, w, .refl e w, by simp⟩
    | some next =>
      obtain ⟨notices, e', w'⟩ := next
      have hworldSteps := worldSteps_next hl hactions hop hnext
      have hactions' : e'.settings.actions = .builtin := by
        rw [settings_of_runNext? hl hnext, hactions]
      obtain ⟨e'', w'', hlater, hresult⟩ :=
        ih (hl.runNext? hnext) hactions' (notices.reverseAux told) w'
      exact ⟨e'', w'', hworldSteps.trans hlater, hresult⟩

theorem worldSteps_dispatch (hl : e.Linked) (hactions : e.settings.actions = .builtin)
    (hop : op.scene? = some (w, now)) : WorldSteps op e w (e.offeredWorldEvents w now (e.offered op))
      (Run.attempts e.settings.maxDepth (e.offered op) (Run.start e w now)).engine
      (Run.attempts e.settings.maxDepth (e.offered op) (Run.start e w now)).world :=
  have hs : ActionSteps (Run.start e w now) _ _ :=
    actionSteps_attempts e.settings.maxDepth hactions (installed_of_offered hl.catalog op)
  worldSteps_of_actionSteps (time?_of_scene? hop) hs

theorem leaves?_of_scene? (hl : e.Linked) (hop : op.scene? = some (w, now)) : e.leaves? op =
    some (Run.attempts e.settings.maxDepth (e.offered op) (Run.start e w now)).world := by
  have hleaves : e.leaves? op = some (((e.dispatch? op).map (·.2.2)).getD w) := by
    cases op with
    | fire | handle =>
      cases hop
      rfl
    | fireRule w' ref context now' =>
      cases hop
      unfold leaves? dispatch?
      dsimp only
      cases e.fireRule w ref context now <;> rfl
    | load | reload | unload | setEnabled | advance | restore => cases hop
  rw [hleaves]
  rcases dispatch?_eq hl.catalog hop with ⟨hnone, hoffered, -⟩ | hsome
  · rw [hnone, hoffered]
    rfl
  · rw [hsome]
    rfl

theorem exists_worldSteps (hl : e.Linked) (hactions : e.settings.actions = .builtin) (ha : op.Authored)
    (w : World) : ∃ e' w', WorldSteps op e (op.world?.getD w) (e.worldEventsOf op) e' w' ∧
      (∀ d, e.perform op = some d → d = e') ∧ ∀ v, e.leaves? op = some v → v = w' := by
  have hdispatch {u : World} {now : Instant} (hop : op.scene? = some (u, now)) :
      ∃ e' w', WorldSteps op e u (e.offeredWorldEvents u now (e.offered op)) e' w' ∧
        (∀ d, e.perform op = some d → d = e') ∧ ∀ v, e.leaves? op = some v → v = w' := by
    refine ⟨_, _, worldSteps_dispatch hl hactions hop, fun d hd => ?_, fun v hv => ?_⟩
    · rw [perform_of_scene? hl.catalog hop] at hd
      exact (Option.some.inj hd).symm
    · rw [leaves?_of_scene? hl hop] at hv
      exact (Option.some.inj hv).symm
  have haside (hop : op.world? = none) {e' : Engine} (hp : e.perform op = some e')
      (hleaves : e.leaves? op = none) :
      ∃ e' w', WorldSteps op e w [] e' w' ∧ (∀ d, e.perform op = some d → d = e') ∧
        ∀ v, e.leaves? op = some v → v = w' := by
    refine ⟨e', w, .single (.aside hop ha hp w), fun d hd => ?_, fun v hv => ?_⟩
    · exact Option.some.inj (hd.symm.trans hp)
    · rw [hleaves] at hv
      cases hv
  cases op with
  | load | reload | unload | restore => exact haside rfl rfl rfl
  | setEnabled ref enabled now =>
    have hp : ∃ e', e.perform (.setEnabled ref enabled now) = some e' := by
      unfold perform
      dsimp only
      split
      · exact ⟨_, rfl⟩
      · exact ⟨_, rfl⟩
    obtain ⟨e', hp⟩ := hp
    exact haside rfl hp rfl
  | fire | handle | fireRule => exact hdispatch rfl
  | advance budget u now =>
    obtain ⟨e', w', hworldSteps, hresult⟩ := exists_worldSteps_advance hl hactions rfl budget [] u
    refine ⟨e', w', hworldSteps, fun d hd => ?_, fun v hv => ?_⟩
    · obtain ⟨r, hr, rfl⟩ := Option.map_eq_some_iff.mp hd
      rw [hresult r hr]
    · obtain ⟨r, hr, rfl⟩ := Option.map_eq_some_iff.mp hv
      rw [hresult r hr]

section WorldHistory

variable {motive : Option Operation → List WorldEvent → Engine → World → Prop} {last : Option Operation}
  {log : List WorldEvent}

/-- Something is true after world events, and was true at each point before, with the operation that was
called last, the engine and the world of the time. -/
def Throughout (motive : Option Operation → List WorldEvent → Engine → World → Prop)
    (last : Option Operation) (log : List WorldEvent) (e : Engine) (w : World) : Prop :=
  motive last log e w ∧ ∀ l, l <+: log → ∃ last e w, motive last l e w

theorem throughout_nil (h : motive last [] e w) : Throughout motive last [] e w := by
  refine ⟨h, fun l hl => ?_⟩
  rw [List.prefix_nil.mp hl]
  exact ⟨last, e, w, h⟩

theorem Throughout.snoc {last' : Option Operation} {m : WorldEvent} (h : Throughout motive last log e w)
    (hm : motive last' (log ++ [m]) e' w') : Throughout motive last' (log ++ [m]) e' w' := by
  refine ⟨hm, fun l hl => ?_⟩
  rcases List.prefix_concat_iff.mp hl with rfl | hl
  · exact ⟨last', e', w', hm⟩
  · exact h.2 l hl

theorem Throughout.worldSteps (hl : e.Linked)
    (hworldStep : ∀ log e w ms e' w', e.Linked → WorldStep op e w ms e' w' → motive (some op) log e w →
      motive (some op) (log ++ ms) e' w')
    (h : Throughout motive (some op) log e w) (hp : WorldSteps op e w ms e' w') :
    Throughout motive (some op) (log ++ ms) e' w' := by
  induction hp generalizing log with
  | refl => rwa [List.append_nil]
  | head hp _ ih =>
    rw [← List.append_assoc]
    refine ih (hp.linked hl) ?_
    have hnext := hworldStep _ _ _ _ _ _ hl hp h.1
    rcases hp.eq_nil_or_single with rfl | ⟨m, rfl⟩
    · rw [List.append_nil] at hnext ⊢
      exact ⟨hnext, h.2⟩
    · exact h.snoc hnext

theorem worldHistory_induct {settings : Settings} {ops : List Operation}
    (hactions : settings.actions = .builtin) (ha : ∀ op ∈ ops, op.Authored) {w₀ : World}
    (hstart : motive none [] (ofSettings settings) w₀)
    (hcalled : ∀ op ∈ ops, ∀ last log e w, motive last log e w →
      motive (some op) (log ++ [.called op]) e (op.world?.getD w))
    (hworldStep : ∀ op ∈ ops, ∀ log e w ms e' w', e.Linked → WorldStep op e w ms e' w' →
      motive (some op) log e w → motive (some op) (log ++ ms) e' w') :
    ∃ last e w, Throughout motive last (worldHistory settings ops) e w ∧
      ∀ d, after? settings ops = some d → d = e := by
  have hperform (op : Operation) (hop : op ∈ ops) {last : Option Operation} {log : List WorldEvent}
      {d : Engine} {w : World} (hd : d.Linked) (hactions : d.settings.actions = .builtin)
      (h : Throughout motive last log d w) : ∃ e' w', e'.Linked ∧
        Throughout motive (some op) (log ++ .called op :: d.worldEventsOf op) e' w' ∧
          ∀ e, d.perform op = some e → e = e' := by
    obtain ⟨e', w', hp, hresult, -⟩ := exists_worldSteps hd hactions (ha op hop) w
    refine ⟨e', w', hp.linked hd, ?_, hresult⟩
    rw [List.append_cons]
    exact (h.snoc (hcalled op hop last log d w h.1)).worldSteps hd (hworldStep op hop) hp
  suffices hall : ∃ last e w, e.Linked ∧ Throughout motive last (worldHistory settings ops) e w ∧
      ∀ d, after? settings ops = some d → d = e by
    obtain ⟨last, e, w, -, h⟩ := hall
    exact ⟨last, e, w, h⟩
  clear hcalled hworldStep
  induction ops with
  | nil =>
    exact ⟨none, _, w₀, linked_ofSettings settings, throughout_nil hstart,
      fun d hd => (Option.some.inj hd).symm⟩
  | cons op ops ih =>
    obtain ⟨hop, hops⟩ := List.forall_mem_cons.mp ha
    obtain ⟨last, mid, w, hmid, hm, hlast⟩ :=
      ih hops fun op hop => hperform op (List.mem_cons_of_mem _ hop)
    rw [worldHistory, after?]
    cases hafter : after? settings ops with
    | none =>
      -- Nothing happens after an operation that has not returned.
      refine ⟨last, mid, w, hmid, ?_, fun d hd => by cases hd⟩
      rwa [List.append_nil]
    | some d =>
      obtain rfl := hlast d hafter
      have hsettings := (reaches_iff.mpr ⟨hops, hafter⟩ : Reaches settings ops d).settings
      obtain ⟨e', w', he', hm', hresult⟩ :=
        hperform op List.mem_cons_self hmid (by rw [hsettings, hactions]) hm
      exact ⟨some op, e', w', he', hm', hresult⟩

end WorldHistory

end WorldTriggers.Engine
