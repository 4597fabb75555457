import WorldTriggers.Proofs.Engine.WorldEvents

namespace WorldTriggers

theorem WorldEvent.worldAfter_append (w : World) (ms ms' : List WorldEvent) :
    worldAfter w (ms ++ ms') = worldAfter (worldAfter w ms) ms' := List.foldl_append

namespace Run

open Engine

variable {run mid run' : Run} {f : Firing} {ms ms' : List WorldEvent}

def carryOut (run : Run) (f : Firing) (a : Action) : Run :=
  (run.act f a).1.followups.foldl (applyFollowup none f) (run.act f a).2

inductive ActionStep : Run → List WorldEvent → Run → Prop where
  | told (run : Run) {notices : List Notice} (h : ∀ n ∈ notices, n.isNews = false) :
      ActionStep run [] (run.note notices)
  | entered {run : Run} {f : Firing} (hf : run.engine.Installed f) : ActionStep run [] (run.enter f)
  | acted {run : Run} (hactions : run.engine.settings.actions = .builtin) (f : Firing) (a : Action) :
      ActionStep run [.acted f a run] (run.carryOut f a)
  | deferred {run : Run} {f : Firing} {i : Nat} {a : Action} {wait : Span} {due : Instant}
      (hf : run.engine.Installed f) (ha : f.rule.actions[i]? = some a) (hw : a.wait? = some wait)
      (hd : run.now.after? wait = some due) :
      ActionStep run [] { run with engine := run.engine.scheduleContinuation ⟨f, i⟩ due }

inductive ActionSteps : Run → List WorldEvent → Run → Prop where
  | refl (run : Run) : ActionSteps run [] run
  | head {run mid run' : Run} {ms ms' : List WorldEvent} (h : ActionStep run ms mid)
      (h' : ActionSteps mid ms' run') : ActionSteps run (ms ++ ms') run'

structure RunSteps (run run' : Run) : Prop where
  now : run'.now = run.now
  steps : Steps run.now run.engine run'.engine

section RunSteps

theorem RunSteps.refl (run : Run) : RunSteps run run := ⟨rfl, .refl⟩

theorem RunSteps.trans {run'' : Run} (h : RunSteps run run') (h' : RunSteps run' run'') :
    RunSteps run run'' where
  now := h'.now.trans h.now
  steps := by
    have hsteps := h'.steps
    rw [h.now] at hsteps
    exact h.steps.trans hsteps

theorem runSteps_applyFollowup (f : Firing) (run : Run) (x : Followup) :
    RunSteps run (applyFollowup none f run x) ∧ (applyFollowup none f run x).world = run.world := by
  unfold applyFollowup
  cases x with
  | setEnabled target enabled =>
    dsimp only
    split
    · exact ⟨⟨rfl, .single (.switch ‹_›)⟩, rfl⟩
    · exact ⟨⟨rfl, .refl⟩, rfl⟩
  | fireRule target => exact ⟨.refl run, rfl⟩
  | expireEffect actor effect stat after =>
    dsimp only
    split
    · exact ⟨⟨rfl, .single (.expire actor effect stat ‹_›)⟩, rfl⟩
    · exact ⟨.refl run, rfl⟩

theorem runSteps_followups (f : Firing) (left : List Followup) (run : Run) :
    RunSteps run (left.foldl (applyFollowup none f) run) ∧
      (left.foldl (applyFollowup none f) run).world = run.world := by
  induction left generalizing run with
  | nil => exact ⟨.refl run, rfl⟩
  | cons x rest ih =>
    obtain ⟨hfirst, hworld⟩ := runSteps_applyFollowup f run x
    obtain ⟨hrest, hworld'⟩ := ih (applyFollowup none f run x)
    exact ⟨hfirst.trans hrest, hworld'.trans hworld⟩

theorem ActionStep.runSteps (h : ActionStep run ms run') : RunSteps run run' := by
  cases h with
  | told h => exact ⟨rfl, .refl⟩
  | entered hf => exact ⟨rfl, .single (.record hf)⟩
  | acted hactions f a =>
    have hact : RunSteps run (run.act f a).2 := by
      refine ⟨now_act run f a, ?_⟩
      rw [engine_act]
      exact .refl
    exact hact.trans (runSteps_followups f _ _).1
  | deferred hf ha hw hd => exact ⟨rfl, .single (.putOff hf ha hw hd)⟩

theorem world_carryOut (run : Run) (f : Firing) (a : Action) :
    (run.carryOut f a).world = (run.act f a).2.world := (runSteps_followups f _ _).2

theorem ActionStep.world (h : ActionStep run ms run') : run'.world = WorldEvent.worldAfter run.world ms := by
  cases h with
  | told | entered | deferred => rfl
  | acted hactions f a => exact world_carryOut run f a

end RunSteps

namespace ActionSteps

theorem single (h : ActionStep run ms run') : ActionSteps run ms run' := by
  have hsingle := ActionSteps.head h (.refl run')
  rwa [List.append_nil] at hsingle

theorem trans (h : ActionSteps run ms mid) (h' : ActionSteps mid ms' run') :
    ActionSteps run (ms ++ ms') run' := by
  induction h with
  | refl => exact h'
  | head h _ ih =>
    rw [List.append_assoc]
    exact .head h (ih h')

theorem runSteps (h : ActionSteps run ms run') : RunSteps run run' := by
  induction h with
  | refl => exact .refl _
  | head h _ ih => exact h.runSteps.trans ih

theorem installed (h : ActionSteps run ms run') (hf : run.engine.Installed f) : run'.engine.Installed f :=
  hf.congr h.runSteps.steps.catalog

theorem actions (h : ActionSteps run ms run') (hactions : run.engine.settings.actions = .builtin) :
    run'.engine.settings.actions = .builtin := by
  rw [h.runSteps.steps.settings, hactions]

end ActionSteps

section Program

theorem act_cases (hactions : run.engine.settings.actions = .builtin) (f : Firing) (a : Action) :
    ((run.act f a).1 = {} ∧ (run.act f a).2.world = run.world) ∨
      ∃ handler, ActionRegistry.builtin.get? a.kind = some handler ∧
        handler a.params ⟨run.world, f.context, f.scope⟩ =
          .ok ((run.act f a).1, (run.act f a).2.world) := by
  unfold act
  rw [hactions]
  cases hact : ActionRegistry.builtin.get? a.kind with
  | none => exact .inl ⟨rfl, rfl⟩
  | some handler =>
    dsimp only
    cases hresult : handler a.params ⟨run.world, f.context, f.scope⟩ with
    | error err => exact .inl ⟨rfl, rfl⟩
    | ok result => exact .inr ⟨handler, rfl, hresult⟩

theorem followups_act (hactions : run.engine.settings.actions = .builtin) (f : Firing) (a : Action) :
    (∀ x ∈ (run.act f a).1.followups, ∀ target, x ≠ .fireRule target) ∨
      ∃ target, (run.act f a).1.followups = [.fireRule target] := by
  rcases act_cases hactions f a with ⟨hnone, -⟩ | ⟨handler, hact, hok⟩
  · rw [hnone]
    exact .inl fun _ hx => nomatch hx
  generalize (run.act f a).1 = outcome, (run.act f a).2.world = world at hok ⊢
  rcases ActionHandler.builtin_cases hact with ⟨-, rfl⟩ | ⟨-, rfl⟩ | ⟨-, rfl⟩ | ⟨-, rfl⟩ | ⟨-, hcalm⟩
  · obtain ⟨target, -, rfl, -⟩ := ActionHandler.control_eq_ok_iff.mp hok
    exact .inl (by simp)
  · obtain ⟨target, -, rfl, -⟩ := ActionHandler.control_eq_ok_iff.mp hok
    exact .inl (by simp)
  · obtain ⟨target, -, rfl, -⟩ := ActionHandler.control_eq_ok_iff.mp hok
    exact .inr ⟨target, rfl⟩
  · cases hok
    exact .inl fun _ hx => nomatch hx
  · left
    intro x hx target htarget
    obtain ⟨actor, effect, stat, after, rfl⟩ := (hcalm _ _ _ _ hok).2 x hx
    cases htarget

def Records (r : WorldEventCascade) : Prop :=
  ∀ f run, run.engine.settings.actions = .builtin → run.engine.Installed f →
    ActionSteps run (r.worldEvents f run) (r.fire f run)

variable {r : Option WorldEventCascade}

theorem followups_of_none_fires {left : List Followup} (hleft : ∀ x ∈ left, ∀ target, x ≠ .fireRule target)
    (r : Option WorldEventCascade) (f : Firing) (run : Run) :
    followupsWorldEvents r f left run = [] ∧
      left.foldl (applyFollowup (r.map WorldEventCascade.fire) f) run =
        left.foldl (applyFollowup none f) run := by
  induction left generalizing run with
  | nil => exact ⟨rfl, rfl⟩
  | cons x rest ih =>
    obtain ⟨hx, hrest⟩ := List.forall_mem_cons.mp hleft
    have hsame := applyFollowup_of_ne hx (r.map WorldEventCascade.fire) f run
    have hnone : followupWorldEvents r f run x = [] := by
      cases x with
      | fireRule target => exact absurd rfl (hx target)
      | setEnabled | expireEffect => rfl
    rw [followupsWorldEvents, hnone, List.foldl_cons, List.foldl_cons, hsame]
    exact ih hrest _

theorem actionSteps_fireRule (hr : ∀ s, r = some s → Records s)
    (hactions : run.engine.settings.actions = .builtin) (f : Firing) (target : RuleRef) :
    ActionSteps run (followupWorldEvents r f run (.fireRule target))
      (applyFollowup (r.map WorldEventCascade.fire) f run (.fireRule target)) := by
  unfold followupWorldEvents applyFollowup
  cases r with
  | none => exact .refl run
  | some r =>
    dsimp only [Option.map_some]
    cases ht : run.engine.target? target with
    | none =>
      refine .single (.told run fun n hn => ?_)
      obtain rfl := List.mem_singleton.mp hn
      rfl
    | some found =>
      obtain ⟨epoch, rule⟩ := found
      exact hr r rfl _ run hactions (installed_of_target? ht _)

theorem actionSteps_act (hr : ∀ s, r = some s → Records s)
    (hactions : run.engine.settings.actions = .builtin) (f : Firing) (a : Action) :
    ActionSteps run
      (.acted f a run :: followupsWorldEvents r f (run.act f a).1.followups (run.act f a).2)
      ((run.act f a).1.followups.foldl (applyFollowup (r.map WorldEventCascade.fire) f) (run.act f a).2) := by
  have hacted : ActionStep run [.acted f a run] (run.carryOut f a) := .acted hactions f a
  rcases followups_act hactions f a with hnone | ⟨target, hfire⟩
  · obtain ⟨hworldEvents, hfold⟩ := followups_of_none_fires hnone r f (run.act f a).2
    rw [hworldEvents, hfold]
    exact .single hacted
  · unfold carryOut at hacted
    rw [hfire] at hacted ⊢
    have hactions' : (run.act f a).2.engine.settings.actions = .builtin := by
      rw [engine_act, hactions]
    have hfired := actionSteps_fireRule hr hactions' f target
    rw [followupsWorldEvents, followupsWorldEvents, List.append_nil]
    exact .head hacted hfired

theorem actionSteps_actions (hr : ∀ s, r = some s → Records s) {actions : List Action} (i : Nat)
    (resumed : Bool) (hdrop : f.rule.actions.drop i = actions)
    (hactions : run.engine.settings.actions = .builtin) (hf : run.engine.Installed f) :
    ActionSteps run (actionWorldEvents r f resumed actions run)
      (runActions (r.map WorldEventCascade.fire) f resumed i actions run) := by
  -- Only the first action may be one that is resumed and does not wait again.
  induction actions generalizing i resumed run with
  | nil => exact .refl run
  | cons a rest ih =>
    have ha : f.rule.actions[i]? = some a := by
      rw [← List.head?_drop, hdrop]
      rfl
    have hrest : f.rule.actions.drop (i + 1) = rest := by
      rw [← List.tail_drop, hdrop]
      rfl
    rw [runActions_cons]
    unfold actionWorldEvents
    cases hw : if resumed then none else a.wait? with
    | some wait =>
      have hwait : a.wait? = some wait := by
        cases resumed <;> simp_all
      dsimp only
      unfold defer
      split
      · exact .single (.deferred hf ha hwait ‹_›)
      · exact .refl run
    | none =>
      have hacted := actionSteps_act hr hactions f a
      dsimp only
      split
      · rw [List.append_nil]
        exact hacted
      · have hlater := ih (i + 1) false hrest (hacted.actions hactions) (hacted.installed hf)
        exact hacted.trans hlater

theorem actionSteps_attemptWith (hr : ∀ s, r = some s → Records s)
    (hactions : run.engine.settings.actions = .builtin) (hf : run.engine.Installed f) :
    ActionSteps run (attemptWorldEventsWith r f run) (attemptWith (r.map WorldEventCascade.fire) f run) := by
  unfold attemptWorldEventsWith attemptWith
  split
  · have hentered : ActionSteps run [] (run.enter f) := .single (.entered hf)
    exact hentered.trans (actionSteps_actions hr 0 false rfl (hentered.actions hactions)
      (hentered.installed hf))
  · exact .refl run

theorem records_worldEventCascade? (depth : Nat) : ∀ s, worldEventCascade? depth = some s → Records s := by
  induction depth with
  | zero => exact fun s hs => nomatch hs
  | succ depth ih =>
    intro s hs f run hactions hf
    cases hs
    have hattempt := actionSteps_attemptWith ih hactions hf
    cases depth <;> exact hattempt

theorem actionSteps_attempt (depth : Nat) (hactions : run.engine.settings.actions = .builtin)
    (hf : run.engine.Installed f) :
    ActionSteps run (attemptWorldEvents depth f run) (attempt depth f run) := by
  have hattempt := actionSteps_attemptWith (records_worldEventCascade? depth) hactions hf
  cases depth <;> exact hattempt

theorem actionSteps_attempts (depth : Nat) {fs : List Firing}
    (hactions : run.engine.settings.actions = .builtin) (hfs : ∀ f ∈ fs, run.engine.Installed f) :
    ActionSteps run (attemptsWorldEvents depth fs run) (attempts depth fs run) := by
  induction fs generalizing run with
  | nil => exact .refl run
  | cons f fs ih =>
    obtain ⟨hf, hrest⟩ := List.forall_mem_cons.mp hfs
    have hfirst := actionSteps_attempt depth hactions hf
    exact hfirst.trans (ih (hfirst.actions hactions) fun g hg => hfirst.installed (hrest g hg))

theorem actionSteps_resume {c : Continuation} (run : Run) (hactions : run.engine.settings.actions = .builtin)
    (hf : run.engine.Installed c.firing) :
    ActionSteps { run with visited := c.firing.ref :: run.visited } (run.resumeWorldEvents c)
      (run.resume c) := by
  have hresumed : ActionSteps { run with visited := c.firing.ref :: run.visited } _ _ :=
    actionSteps_actions (records_worldEventCascade? run.engine.settings.maxDepth) c.next true rfl hactions hf
  unfold resume resumeWorldEvents
  dsimp only
  cases hmax : run.engine.settings.maxDepth <;> rw [hmax] at hresumed <;> exact hresumed

end Program

end Run

end WorldTriggers
