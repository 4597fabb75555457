import WorldTriggers.Proofs.Engine.Flags

namespace WorldTriggers

def Action.IsQuiet (a : Action) : Prop := a.kind ∉ ActionHandler.controlKinds ∧ a.wait? = none

def Rule.Unguarded (r : Rule) : Prop :=
  r.conditions = [] ∧ r.cooldownSpan? = none ∧ r.fireLimit? = none

instance (r : Rule) : Decidable r.Unguarded := by
  unfold Rule.Unguarded
  infer_instance

namespace Run

open Engine

variable {f : Firing} {run run' : Run} {a : Action} {ref : RuleRef}

structure RunKeepsFlags (run run' : Run) : Prop where
  now : run'.now = run.now
  settings : run'.engine.settings = run.engine.settings
  keepsFlags : run.engine.KeepsFlags run'.engine

theorem RunKeepsFlags.refl (run : Run) : RunKeepsFlags run run := ⟨rfl, rfl, .refl _⟩

theorem RunKeepsFlags.trans {run'' : Run} (h : RunKeepsFlags run run') (h' : RunKeepsFlags run' run'') :
    RunKeepsFlags run run'' :=
  ⟨h'.now.trans h.now, h'.settings.trans h.settings, h.keepsFlags.trans h'.keepsFlags⟩

theorem calmly_followups (cascade : Option Cascade) (f : Firing) {left : List Followup}
    (h : ∀ x ∈ left, ∃ actor effect stat after, x = .expireEffect actor effect stat after) (run : Run) :
    RunKeepsFlags run (left.foldl (applyFollowup cascade f) run) := by
  induction left generalizing run with
  | nil => exact .refl run
  | cons x rest ih =>
    obtain ⟨⟨actor, effect, stat, after, rfl⟩, hrest⟩ := List.forall_mem_cons.mp h
    refine RunKeepsFlags.trans ?_ (ih hrest _)
    unfold applyFollowup
    dsimp only
    split
    · exact ⟨rfl, rfl, keepsFlags_scheduleExpiry ..⟩
    · exact .refl run

theorem runActions_quiet_cons (cascade : Option Cascade) (f : Firing) (i : Nat) (rest : List Action)
    (hactions : run.engine.settings.actions = .builtin) (ha : a.IsQuiet) :
    ∃ run', RunKeepsFlags run run' ∧
      runActions cascade f false i (a :: rest) run = runActions cascade f false (i + 1) rest run' := by
  obtain ⟨hkind, hwait⟩ := ha
  rw [runActions, if_neg (by simp), hwait, hactions]
  dsimp only
  cases hact : ActionRegistry.builtin.get? a.kind with
  | none => exact ⟨run, .refl run, rfl⟩
  | some act =>
    have hcalm : ∀ p env, ActionHandler.Calm (act p env) := by
      rcases ActionHandler.builtin_cases hact with ⟨hk, -⟩ | ⟨hk, -⟩ | ⟨hk, -⟩ | ⟨hk, -⟩ | ⟨-, h⟩
      · simp [hk, ActionHandler.controlKinds] at hkind
      · simp [hk, ActionHandler.controlKinds] at hkind
      · simp [hk, ActionHandler.controlKinds] at hkind
      · simp [hk, ActionHandler.controlKinds] at hkind
      · exact h
    dsimp only
    split
    · exact ⟨run.fail f a.kind _, ⟨rfl, rfl, .refl _⟩, rfl⟩
    · rename_i outcome world hok
      obtain ⟨hcancel, hleft⟩ := hcalm _ _ _ _ hok
      have hworld : RunKeepsFlags run ({ run with world }.note outcome.notices) := ⟨rfl, rfl, .refl _⟩
      rw [hcancel]
      exact ⟨_, hworld.trans (calmly_followups cascade f hleft _), rfl⟩

theorem runActions_quiet (cascade : Option Cascade) (f : Firing) (i : Nat) (rest : List Action)
    (hactions : run.engine.settings.actions = .builtin) {pre : List Action}
    (hpre : ∀ a ∈ pre, a.IsQuiet) :
    ∃ run', RunKeepsFlags run run' ∧ runActions cascade f false i (pre ++ rest) run =
      runActions cascade f false (i + pre.length) rest run' := by
  induction pre generalizing run i with
  | nil => exact ⟨run, .refl run, rfl⟩
  | cons a pre ih =>
    obtain ⟨ha, hpre⟩ := List.forall_mem_cons.mp hpre
    obtain ⟨mid, hmid, heq⟩ := runActions_quiet_cons cascade f i (pre ++ rest) hactions ha
    obtain ⟨run', hrun', heq'⟩ := ih (i + 1) (by rw [hmid.settings, hactions]) hpre
    refine ⟨run', hmid.trans hrun', ?_⟩
    rw [List.cons_append, heq, heq', List.length_cons, Nat.add_right_comm, Nat.add_assoc]

theorem applyFollowup_setEnabled (cascade : Option Cascade) (f : Firing) {enabled : Bool}
    {notice : Notice} {engine : Engine}
    (h : run.engine.setEnabled ref enabled run.now = .ok (notice, engine)) :
    applyFollowup cascade f run (.setEnabled ref enabled) = { run with engine }.note [notice] := by
  unfold applyFollowup
  dsimp only
  rw [h]

theorem runActions_switch (cascade : Option Cascade) (f : Firing) (i : Nat) (rest : List Action)
    {enabled : Bool} {notice : Notice} {engine : Engine}
    (hactions : run.engine.settings.actions = .builtin) (hkind : a.kind = Action.switchKind enabled)
    (hwait : a.wait? = none) (hnames : a.target? f.scope = some ref)
    (hset : run.engine.setEnabled ref enabled run.now = .ok (notice, engine)) :
    runActions cascade f false i (a :: rest) run =
      runActions cascade f false (i + 1) rest ({ run.note [] with engine }.note [notice]) := by
  have hact : ActionRegistry.builtin.get? a.kind = some (ActionHandler.setEnabled enabled) := by
    rw [hkind]
    cases enabled <;> rfl
  have hok : ActionHandler.setEnabled enabled a.params ⟨run.world, f.context, f.scope⟩ =
      .ok ({ followups := [.setEnabled ref enabled] }, run.world) :=
    ActionHandler.control_eq_ok_iff.mpr ⟨ref, ActionHandler.targetRule_eq_ok_iff.mpr hnames, rfl, rfl⟩
  rw [runActions, if_neg (by simp), hwait, hactions]
  dsimp only
  rw [hact]
  dsimp only
  rw [hok]
  have happly : applyFollowup cascade f ({ run with world := run.world }.note [])
      (.setEnabled ref enabled) = _ := applyFollowup_setEnabled cascade f hset
  exact congrArg (runActions cascade f false (i + 1) rest) happly

theorem runActions_fire (fire : Cascade) (f : Firing) (i : Nat)
    (hactions : run.engine.settings.actions = .builtin) (hkind : a.kind = "fire_trigger")
    (hnames : a.target? f.scope = some ref)
    {epoch : Nat} {rule : Rule} (ht : run.engine.target? ref = some (epoch, rule)) :
    runActions (some fire) f true i [a] run =
      fire ⟨ref.scope, epoch, rule, f.context⟩ (run.note []) := by
  have hact : ActionRegistry.builtin.get? a.kind = some ActionHandler.fireTrigger := by
    rw [hkind]
    rfl
  have hok : ActionHandler.fireTrigger a.params ⟨run.world, f.context, f.scope⟩ =
      .ok ({ followups := [.fireRule ref] }, run.world) :=
    ActionHandler.control_eq_ok_iff.mpr
      ⟨ref, ActionHandler.targetRule_eq_ok_iff.mpr hnames, rfl, rfl⟩
  rw [runActions, if_pos rfl, hactions]
  dsimp only
  rw [hact]
  dsimp only
  rw [hok]
  have happly : applyFollowup (some fire) f (run.note []) (.fireRule ref) =
      fire ⟨ref.scope, epoch, rule, f.context⟩ (run.note []) := by
    unfold applyFollowup
    dsimp only
    rw [show (run.note []).engine = run.engine from rfl, ht]
  exact happly

theorem mayFire_of_unguarded {f : Firing} {run : Run} (hf : run.engine.Installed f)
    (hrule : f.rule.Unguarded) (hon : run.engine.IsOn f.ref) (hnew : f.ref ∉ run.visited) :
    f.mayFire run := by
  obtain ⟨hconditions, hcooldown, hlimit⟩ := hrule
  obtain ⟨rule, hr, hflag⟩ := isOn_iff.mp hon
  obtain rfl : f.rule = rule := Option.some.inj ((target?_eq_some_iff.mp hf).2.symm.trans hr)
  have hstate : (run.engine.states.stateOf f.ref).isEnabled f.rule.enabled = true := hflag
  have hcondition : f.conditionsHold run := by
    unfold Firing.conditionsHold
    rw [hconditions]
    rfl
  have hvisited : run.visited.contains f.ref = false := by simpa using hnew
  unfold Firing.mayFire Firing.isAllowed
  rw [hvisited, hstate, hcooldown, hlimit, hcondition]
  rfl

theorem engine_attempt_of_wait (depth : Nat) {rest : List Action} {wait : Span} {due : Instant}
    (hm : f.mayFire run) (hlist : f.rule.actions = a :: rest) (hwait : a.wait? = some wait)
    (hdue : run.now.after? wait = some due) :
    (attempt depth f run).engine =
      (run.engine.recordFiring f run.now).scheduleContinuation ⟨f, 0⟩ due := by
  obtain ⟨cascade, hattempt⟩ := exists_attempt_eq depth f run
  rw [hattempt, attemptWith, if_pos hm, hlist, runActions, if_neg (by simp), hwait]
  dsimp only
  rw [defer]
  dsimp only
  rw [hdue]

end Run

end WorldTriggers
