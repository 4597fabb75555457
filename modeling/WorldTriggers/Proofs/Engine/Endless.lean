import WorldTriggers.Proofs.Engine.Actions
import WorldTriggers.Proofs.Engine.ImmediateJobs

namespace WorldTriggers

namespace Rule

def Restarts (r : Rule) (ref : RuleRef) : Prop :=
  r.Unguarded ∧ r.timerPlan?.map (·.initial) = some 0 ∧
    r.outline ref.scope =
      [(Action.switchKind false, none, some ref), (Action.switchKind true, none, some ref)]

/-- A rule that only fires another, after a delay that comes to no time. -/
def FiresWithoutDelay (r : Rule) (ref target : RuleRef) : Prop :=
  r.Unguarded ∧ r.outline ref.scope = [("fire_trigger", some 0, some target)]

instance (r : Rule) (ref : RuleRef) : Decidable (r.Restarts ref) := by
  unfold Restarts
  infer_instance

instance (r : Rule) (ref target : RuleRef) : Decidable (r.FiresWithoutDelay ref target) := by
  unfold FiresWithoutDelay
  infer_instance

end Rule

namespace Job

def isTimerOf (ref : RuleRef) : Job → Bool
  | .ruleTimer r _ => r == ref
  | _ => false

def isFirstOf (refs : List RuleRef) : Job → Bool
  | .continuation c => refs.contains c.firing.ref && c.next == 0
  | _ => false

theorem isTimerOf_iff {job : Job} {ref : RuleRef} :
    job.isTimerOf ref ↔ ∃ epoch, job = .ruleTimer ref epoch := by
  cases job <;> simp [isTimerOf]

theorem isFirstOf_iff {job : Job} {refs : List RuleRef} :
    job.isFirstOf refs ↔ ∃ c, job = .continuation c ∧ c.firing.ref ∈ refs ∧ c.next = 0 := by
  cases job <;> simp [isFirstOf]

end Job

namespace Engine

variable {e e' d : Engine} {ref : RuleRef} {now : Instant} {epoch : Nat} {rule : Rule}

section Restarting

structure Restarting (e : Engine) (ref : RuleRef) (now : Instant) : Prop where
  linked : e.Linked
  actions : e.settings.actions = .builtin
  rule : ∃ rule, e.Has ref rule ∧ rule.Restarts ref
  on : e.IsOn ref
  due : ∃ h r, e.job? h = some r ∧ r.due ≤ now
  only : ∀ h r, e.job? h = some r → r.due ≤ now → r.payload.isTimerOf ref

theorem engine_offer_of_restarts (hactions : e.settings.actions = .builtin)
    (ht : e.target? ref = some (epoch, rule)) (hrule : rule.Restarts ref) (hon : e.IsOn ref)
    (w : World) (context : Context) (now : Instant) :
    ∃ f d off on, e.Installed f ∧
      (e.recordFiring f now).setEnabled ref false now = .ok (off, d) ∧
      d.setEnabled ref true now =
        .ok (on, ((Run.start e w now).offer ⟨ref.scope, epoch, rule, context⟩).engine) := by
  obtain ⟨hunguarded, -, houtline⟩ := hrule
  obtain ⟨a, rest, hlist, ha, hrest⟩ := List.map_eq_cons_iff.mp houtline
  obtain ⟨b, rest, rfl, hb, hnil⟩ := List.map_eq_cons_iff.mp hrest
  obtain rfl := List.map_eq_nil_iff.mp hnil
  simp only [Prod.mk.injEq] at ha hb
  obtain ⟨hkind, hprompt, hnames⟩ := ha
  obtain ⟨hkind', hprompt', hnames'⟩ := hb
  let f : Firing := ⟨ref.scope, epoch, rule, context⟩
  have href : f.ref = ref := ref_of_target? ht context
  have hf : e.Installed f := installed_of_target? ht context
  let run := (Run.start e w now).enter f
  have hrecord : Step now e run.engine := .record hf
  have ht' : run.engine.target? ref = some (epoch, rule) :=
    (target?_congr (by rw [hrecord.catalog])).trans ht
  obtain ⟨off, d, hoff⟩ := exists_setEnabled ht' false now
  have hswitch : Step now run.engine d := .switch hoff
  have ht'' : d.target? ref = some (epoch, rule) :=
    (target?_congr (by rw [hswitch.catalog])).trans ht'
  obtain ⟨on, d', hon'⟩ := exists_setEnabled ht'' true now
  let mid : Run := { run.note [] with engine := d }.note [off]
  have hactions' : run.engine.settings.actions = .builtin := by rw [hrecord.settings, hactions]
  have hmid : mid.engine.settings.actions = .builtin := by
    rw [show mid.engine.settings = run.engine.settings from hswitch.settings, hactions']
  obtain ⟨cascade, hoffer⟩ := Run.exists_attempt_eq e.settings.maxDepth f (Run.start e w now)
  have heq : Run.runActions cascade f false 0 [a, b] run = Run.runActions cascade f false 1 [b] mid :=
    Run.runActions_switch cascade f 0 [b] hactions' hkind hprompt hnames hoff
  have heq' := Run.runActions_switch cascade f 1 [] hmid hkind' hprompt' hnames' hon'
  have hm : f.mayFire (Run.start e w now) := by
    apply Run.mayFire_of_unguarded hf hunguarded
    · rw [href]
      exact hon
    · exact List.not_mem_nil
  refine ⟨f, d, off, on, hf, hoff, ?_⟩
  rw [Run.offer, show (Run.start e w now).engine = e from rfl, hoffer, Run.attemptWith, if_pos hm]
  change d.setEnabled ref true now =
    .ok (on, (Run.runActions cascade f false 0 rule.actions run).engine)
  rw [hlist, heq, heq']
  exact hon'

theorem exists_job_of_switched {plan : Rule.TimerPlan} {due : Instant} {off on : Notice}
    (ht : e.target? ref = some (epoch, rule)) (hplan : rule.timerPlan? = some plan)
    (hlimit : rule.fireLimit? = none) (hdue : now.after? plan.initial = some due)
    (hoff : e.setEnabled ref false now = .ok (off, d))
    (hon : d.setEnabled ref true now = .ok (on, e')) :
    ∃ h r, e'.job? h = some r ∧ r.due = due := by
  have hevent := event_of_timerPlan? hplan
  have hid := Catalog.id_of_rule? (target?_eq_some_iff.mp ht).2
  have ht' : d.target? ref = some (epoch, rule) :=
    (target?_congr (by rw [catalog_of_setEnabled hoff])).trans ht
  have hd := setEnabled_of_target? ht false now
  have he' := setEnabled_of_target? ht' true now
  rw [hoff, if_neg (by simp), switchedOff, if_pos hevent] at hd
  rw [hon, if_pos rfl, switchedOn, if_pos hevent] at he'
  obtain rfl := (Prod.mk.inj (Except.ok.inj he')).2
  have htimer : d.timerOf ref = none := by
    rw [(Prod.mk.inj (Except.ok.inj hd)).2]
    exact (timerOf_disarmTimer ..).trans (if_pos rfl)
  -- The switch off took the timer away, so that the switch on starts another.
  have hlacks : ((d.flag ref true).touch ref).lacksTimer ref rule := by
    refine ⟨?_, ?_, ?_⟩
    · rw [timerOf_touch, timerOf_flag, htimer]
      rfl
    · rw [stateOf_touch, flag, RuleStates.stateOf_update_self]
      rfl
    · rw [hlimit]
      rfl
  have hcases := armTimer_eq hplan (d.flag ref true) ref.scope epoch now
  rw [hid, hdue] at hcases
  rcases hcases with ⟨hno | hno, -⟩ | ⟨due', -, hdue', he⟩
  · exact absurd hlacks hno
  · cases hno
  · rw [he]
    exact ⟨_, _, (Schedule.job?_register ..).trans (if_pos rfl), (Option.some.inj hdue').symm⟩

theorem Restarting.next (h : e.Restarting ref now) (hnow : now ≤ Instant.last) (w : World) :
    ∃ notices e' w', e.runNext? w now = some (notices, e', w') ∧ e'.Restarting ref now := by
  obtain ⟨k₀, r₀, hr₀, hdue₀⟩ := h.due
  cases hrun : e.runNext? w now with
  | none => exact absurd hdue₀ (not_le_of_gt (runNext?_eq_none_iff.mp hrun k₀ r₀ hr₀))
  | some t =>
    obtain ⟨notices, e', w'⟩ := t
    refine ⟨notices, e', w', rfl, ?_⟩
    obtain ⟨k, r, hr, hdue, hfollows⟩ := runNext?_follows h.linked hrun
    obtain ⟨epoch, hp⟩ := Job.isTimerOf_iff.mp (h.only k r hr hdue)
    rw [hp] at hfollows
    obtain ⟨rule, ht, he⟩ := hfollows
    obtain ⟨rule', hr', hrestarts⟩ := h.rule
    have hsettings := settings_taken e k r now
    have hcatalog := catalog_taken e k r now
    have hrule : e.catalog.rule? ref = some rule := by
      rw [← hcatalog]
      exact (target?_eq_some_iff.mp ht).2
    obtain rfl : rule = rule' := Option.some.inj (hrule.symm.trans hr')
    have hon : (e.taken k r now).IsOn ref := (keepsFlags_taken hr now).isOn h.on
    obtain ⟨f, d, off, on, hf, hoff, hswitch⟩ := engine_offer_of_restarts
      (by rw [hsettings, h.actions]) ht hrestarts hon w (timerContext w ref.scope) now
    rw [← he] at hswitch
    have hrecord : Step now (e.taken k r now) ((e.taken k r now).recordFiring f now) := .record hf
    have hd : Step now ((e.taken k r now).recordFiring f now) d := .switch hoff
    have he' : Step now d e' := .switch hswitch
    have hsame : e'.catalog.rule? ref = some rule := by
      rw [he'.catalog, hd.catalog, hrecord.catalog, hcatalog, hrule]
    constructor
    case linked => exact h.linked.runNext? hrun
    case actions => rw [he'.settings, hd.settings, hrecord.settings, hsettings, h.actions]
    case rule => exact ⟨rule, hsame, hrestarts⟩
    case on =>
      apply isOn_iff.mpr
      refine ⟨rule, hsame, ?_⟩
      rw [(keepsFlags_setEnabled hswitch).flags, flagOf_flag, if_pos rfl]
      rfl
    case due =>
      obtain ⟨plan, hplan, hinitial⟩ := Option.map_eq_some_iff.mp hrestarts.2.1
      have hafter : now.after? plan.initial = some now := by
        rw [hinitial]
        apply Instant.after?_eq_some_iff.mpr
        exact ⟨(add_zero now).symm, (h.linked.issued k r hr).2.trans hdue, hnow⟩
      have ht' := (target?_congr (by rw [hrecord.catalog])).trans ht
      obtain ⟨j, q, hq, hqdue⟩ :=
        exists_job_of_switched ht' hplan hrestarts.1.2.2 hafter hoff hswitch
      exact ⟨j, q, hq, hqdue.le⟩
    case only =>
      intro j q hq hqdue
      rcases job?_of_setEnabled hswitch hq with hq | ⟨-, epoch, _, _, -, -, -, hp⟩
      · rcases job?_of_setEnabled hoff hq with hq | ⟨hne, -⟩
        · have hold := h.linked.due_of_taken hr (job?_of_recordFiring hq) hqdue
          exact h.only j q hold.2 hqdue
        · cases hne
      · exact Job.isTimerOf_iff.mpr ⟨epoch, hp⟩

theorem Restarting.advance_eq_none (h : e.Restarting ref now) (hnow : now ≤ Instant.last) (w : World)
    (budget : Nat) : e.advance budget w now = none := by
  have hstep (d : Engine) (v : World) (hd : d.Restarting ref now) :
      ∃ notices d' v', d.runNext? v now = some (notices, d', v') ∧ d'.Restarting ref now :=
    hd.next hnow v
  exact Engine.advance_eq_none hstep h budget

end Restarting

section MutualFiring

structure MutualFiring (e : Engine) (refs : List RuleRef) (now : Instant) : Prop where
  linked : e.Linked
  actions : e.settings.actions = .builtin
  depth : 0 < e.settings.maxDepth
  on : ∀ ref ∈ refs, e.IsOn ref
  rule : ∀ ref ∈ refs, ∃ rule target, e.Has ref rule ∧ rule.FiresWithoutDelay ref target ∧
    target ∈ refs ∧ target ≠ ref
  due : ∃ h r, e.job? h = some r ∧ r.due ≤ now
  only : ∀ h r, e.job? h = some r → r.due ≤ now → r.payload.isFirstOf refs

variable {target other : RuleRef} {due : Instant}

theorem engine_resume_of_firesWithoutDelay {c : Continuation} (hactions : e.settings.actions = .builtin)
    (hdepth : 0 < e.settings.maxDepth) (hnext : c.next = 0)
    (hwithout : c.firing.rule.FiresWithoutDelay c.firing.ref target) (hne : target ≠ c.firing.ref)
    (ht : e.target? target = some (epoch, rule)) (hwithout' : rule.FiresWithoutDelay target other)
    (hon : e.IsOn target) (hdue : now.after? 0 = some due) (w : World) :
    ∃ g, e.Installed g ∧ g.ref = target ∧
      ((Run.start e w now).resume c).engine =
        (e.recordFiring g now).scheduleContinuation ⟨g, 0⟩ due := by
  obtain ⟨-, houtline⟩ := hwithout
  obtain ⟨hunguarded, houtline'⟩ := hwithout'
  obtain ⟨a, rest, hlist, ha, hrest⟩ := List.map_eq_cons_iff.mp houtline
  obtain ⟨b, rest', hlist', hb, -⟩ := List.map_eq_cons_iff.mp houtline'
  obtain rfl := List.map_eq_nil_iff.mp hrest
  simp only [Prod.mk.injEq] at ha hb
  obtain ⟨hkind, -, hnames⟩ := ha
  obtain ⟨-, hwait, -⟩ := hb
  let g : Firing := ⟨target.scope, epoch, rule, c.firing.context⟩
  have href : g.ref = target := ref_of_target? ht _
  have hg : e.Installed g := installed_of_target? ht _
  let run : Run := { Run.start e w now with visited := c.firing.ref :: [] }
  -- A resumed continuation has visited no rule but its own, so that nothing stops the other one.
  have hm : g.mayFire (run.note []) := by
    apply Run.mayFire_of_unguarded hg hunguarded
    · rw [href]
      exact hon
    · rw [href]
      exact List.not_mem_cons_of_ne_of_not_mem hne List.not_mem_nil
  refine ⟨g, hg, href, ?_⟩
  obtain ⟨depth, hmax⟩ := Nat.exists_eq_add_of_lt hdepth
  rw [Nat.zero_add] at hmax
  have hresume : (Run.start e w now).resume c = Run.attempt depth g (run.note []) := by
    unfold Run.resume
    rw [show (Run.start e w now).engine.settings.maxDepth = depth + 1 from hmax, hnext, hlist]
    exact Run.runActions_fire (Run.attempt depth) c.firing 0 hactions hkind hnames ht
  rw [hresume]
  exact Run.engine_attempt_of_wait depth hm hlist' hwait hdue

theorem MutualFiring.next {refs : List RuleRef} (h : e.MutualFiring refs now) (hnow : now ≤ Instant.last)
    (w : World) : ∃ notices e' w', e.runNext? w now = some (notices, e', w') ∧ e'.MutualFiring refs now := by
  obtain ⟨k₀, r₀, hr₀, hdue₀⟩ := h.due
  cases hrun : e.runNext? w now with
  | none => exact absurd hdue₀ (not_le_of_gt (runNext?_eq_none_iff.mp hrun k₀ r₀ hr₀))
  | some t =>
    obtain ⟨notices, e', w'⟩ := t
    refine ⟨notices, e', w', rfl, ?_⟩
    obtain ⟨k, r, hr, hdue, hfollows⟩ := runNext?_follows h.linked hrun
    obtain ⟨c, hp, hplays, hnext⟩ := Job.isFirstOf_iff.mp (h.only k r hr hdue)
    rw [hp] at hfollows
    obtain ⟨hf, he⟩ := hfollows
    have hsettings := settings_taken e k r now
    have hcatalog := catalog_taken e k r now
    have hafter : now.after? 0 = some now := by
      apply Instant.after?_eq_some_iff.mpr
      exact ⟨(add_zero now).symm, (h.linked.issued k r hr).2.trans hdue, hnow⟩
    obtain ⟨rule, target, hrule, hwithout, hplays', hne⟩ := h.rule _ hplays
    obtain rfl : c.firing.rule = rule := by
      have hfiring := (target?_eq_some_iff.mp hf).2
      rw [hcatalog] at hfiring
      exact Option.some.inj (hfiring.symm.trans hrule)
    obtain ⟨rule, other, hrule', hwithout', -⟩ := h.rule _ hplays'
    obtain ⟨epoch, ht⟩ := exists_target?_of_rule? hrule'
    have ht' := (target?_congr (by rw [hcatalog])).trans ht
    have hon := (keepsFlags_taken hr now).isOn (h.on _ hplays')
    obtain ⟨g, hg, href, hresume⟩ := engine_resume_of_firesWithoutDelay (by rw [hsettings, h.actions])
      (by rw [hsettings]; exact h.depth) hnext hwithout hne ht' hwithout' hon hafter w
    rw [hresume] at he
    have hrecord : Step now (e.taken k r now) ((e.taken k r now).recordFiring g now) := .record hg
    have hkeepsFlags := keepsFlags_recordFiring (e.taken k r now) g now
    have hjob (j : Handle) : e'.job? j =
        if j = ((e.taken k r now).recordFiring g now).schedule.nextHandle then
          some ⟨now, ((e.taken k r now).recordFiring g now).schedule.nextTurn, none,
            .continuation ⟨g, 0⟩⟩
        else ((e.taken k r now).recordFiring g now).job? j := by
      rw [he]
      exact job?_scheduleContinuation ..
    have hcatalog' : e'.catalog = e.catalog := by
      rw [he]
      exact hrecord.catalog.trans hcatalog
    have hsettings' : e'.settings = e.settings := by
      rw [he]
      exact hrecord.settings.trans hsettings
    constructor
    case linked => exact h.linked.runNext? hrun
    case actions => rw [hsettings', h.actions]
    case depth => rw [hsettings']; exact h.depth
    case on =>
      intro ref href
      have hbefore := hkeepsFlags.isOn ((keepsFlags_taken hr now).isOn (h.on ref href))
      rw [he]
      exact hbefore.congr rfl rfl
    case rule =>
      intro ref href
      obtain ⟨rule, target, hrule, hrest⟩ := h.rule ref href
      refine ⟨rule, target, ?_, hrest⟩
      rw [Has, hcatalog']
      exact hrule
    case due => exact ⟨_, _, (hjob _).trans (if_pos rfl), le_refl now⟩
    case only =>
      intro j q hq hqdue
      rw [hjob] at hq
      split at hq
      · obtain rfl := Option.some.inj hq
        exact Job.isFirstOf_iff.mpr ⟨_, rfl, href ▸ hplays', rfl⟩
      · have hold := h.linked.due_of_taken hr (job?_of_recordFiring hq) hqdue
        exact h.only j q hold.2 hqdue

theorem MutualFiring.advance_eq_none {refs : List RuleRef} (h : e.MutualFiring refs now)
    (hnow : now ≤ Instant.last) (w : World) (budget : Nat) : e.advance budget w now = none := by
  have hstep (d : Engine) (v : World) (hd : d.MutualFiring refs now) :
      ∃ notices d' v', d.runNext? v now = some (notices, d', v') ∧ d'.MutualFiring refs now :=
    hd.next hnow v
  exact Engine.advance_eq_none hstep h budget

end MutualFiring

def Endless (e : Engine) (now : Instant) : Prop :=
  (∃ ref, e.Restarting ref now) ∨ ∃ refs, e.MutualFiring refs now

theorem Endless.advance_eq_none (h : e.Endless now) (hnow : now ≤ Instant.last) (w : World)
    (budget : Nat) : e.advance budget w now = none := by
  rcases h with ⟨ref, h⟩ | ⟨refs, h⟩
  · exact h.advance_eq_none hnow w budget
  · exact h.advance_eq_none hnow w budget

end Engine

end WorldTriggers
