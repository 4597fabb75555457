import WorldTriggers.Proofs.Engine.RuleEvents

/-!
Runs with a counter of how deep their cascades are. `Unfolds` sets no bound to its recursion: rules fire
rules, and all that stops them is that none is fired where the counter has come to the limit.
`unfolds_iff` says that each passage of a run comes to an end, in one way, with the counter where it was.
-/

namespace WorldTriggers

inductive Passage where
  | offers (fs : List Firing)
  | attempt (f : Firing)
  | actions (s : Stretch) (resumed : Bool) (index : Nat)
  | followups (f : Firing) (rest : List Followup)

namespace Run

/-- What a passage does under a limit, from one value of the counter to another. -/
inductive Unfolds (max : Nat) : Passage → Nat → Run → List RuleEvent → Nat → Run → Prop where
  | done (depth : Nat) (run : Run) : Unfolds max (.offers []) depth run [] depth run
  | offered {f : Firing} {fs : List Firing} {depth depth₁ depth' : Nat} {run mid run' : Run}
      {ds ds' : List RuleEvent} (h : Unfolds max (.attempt f) depth run ds depth₁ mid)
      (hrest : Unfolds max (.offers fs) depth₁ mid ds' depth' run') :
      Unfolds max (.offers (f :: fs)) depth run (ds ++ ds') depth' run'
  | refused {f : Firing} (depth : Nat) {run : Run} (hm : ¬f.mayFire run) :
      Unfolds max (.attempt f) depth run [] depth run
  | fired {f : Firing} {depth depth' : Nat} {run run' : Run} {ds : List RuleEvent} (hm : f.mayFire run)
      (h : Unfolds max (.actions ⟨f, run.now, []⟩ false 0) depth (run.enter f) ds depth' run') :
      Unfolds max (.attempt f) depth run (.fired (run.onset f depth) :: ds) depth' run'
  | finished {s : Stretch} (resumed : Bool) {i : Nat} (depth : Nat) (run : Run)
      (ha : s.firing.rule.actions[i]? = none) :
      Unfolds max (.actions s resumed i) depth run [.stopped s .finished] depth run
  | deferred {s : Stretch} {i : Nat} {a : Action} {wait : Span} {due : Instant} (depth : Nat)
      {run : Run} (ha : s.firing.rule.actions[i]? = some a) (hw : a.wait? = some wait)
      (hd : run.now.after? wait = some due) :
      Unfolds max (.actions s false i) depth run
        [.stopped s (.putOff run.engine.schedule.nextHandle)] depth
        { run with engine := run.engine.scheduleContinuation ⟨s.firing, i⟩ due }
  | stranded {s : Stretch} {i : Nat} {a : Action} {wait : Span} (depth : Nat) {run : Run}
      (ha : s.firing.rule.actions[i]? = some a) (hw : a.wait? = some wait)
      (hd : run.now.after? wait = none) :
      Unfolds max (.actions s false i) depth run [.stopped s .stranded] depth run
  | calledOff {s : Stretch} {resumed : Bool} {i : Nat} {a : Action} {depth depth' : Nat}
      {run run' : Run} {ds : List RuleEvent} (ha : s.firing.rule.actions[i]? = some a)
      (hw : resumed = true ∨ a.wait? = none) (hc : (run.act s.firing a).1.cancelRest = true)
      (h : Unfolds max (.followups s.firing (run.act s.firing a).1.followups) depth
        (run.act s.firing a).2 ds depth' run') :
      Unfolds max (.actions s resumed i) depth run (ds ++ [.stopped (s.act i) .calledOff]) depth' run'
  | acted {s : Stretch} {resumed : Bool} {i : Nat} {a : Action} {depth depth₁ depth' : Nat}
      {run mid run' : Run} {ds ds' : List RuleEvent} (ha : s.firing.rule.actions[i]? = some a)
      (hw : resumed = true ∨ a.wait? = none) (hc : (run.act s.firing a).1.cancelRest = false)
      (h : Unfolds max (.followups s.firing (run.act s.firing a).1.followups) depth
        (run.act s.firing a).2 ds depth₁ mid)
      (hrest : Unfolds max (.actions (s.act i) false (i + 1)) depth₁ mid ds' depth' run') :
      Unfolds max (.actions s resumed i) depth run (ds ++ ds') depth' run'
  | settled (f : Firing) (depth : Nat) (run : Run) : Unfolds max (.followups f []) depth run [] depth run
  | followed {f : Firing} {x : Followup} {rest : List Followup} {depth depth' : Nat} {run run' : Run}
      {ds : List RuleEvent} (hx : ∀ target, x ≠ .fireRule target)
      (h : Unfolds max (.followups f rest) depth (applyFollowup none f run x) ds depth' run') :
      Unfolds max (.followups f (x :: rest)) depth run (followupRuleEvents none f run x ++ ds) depth' run'
  | tooDeep {f : Firing} {target : RuleRef} {rest : List Followup} {depth depth' : Nat}
      {run run' : Run} {ds : List RuleEvent} (hd : max ≤ depth)
      (h : Unfolds max (.followups f rest) depth run ds depth' run') :
      Unfolds max (.followups f (.fireRule target :: rest)) depth run ds depth' run'
  | missing {f : Firing} {target : RuleRef} {rest : List Followup} {depth depth' : Nat}
      {run run' : Run} {ds : List RuleEvent} (hd : depth < max) (ht : run.engine.target? target = none)
      (h : Unfolds max (.followups f rest) depth
        (run.fail f "fire_trigger" (EngineError.ruleNotFound target).message) ds depth' run') :
      Unfolds max (.followups f (.fireRule target :: rest)) depth run ds depth' run'
  | cascaded {f : Firing} {target : RuleRef} {epoch : Nat} {rule : Rule} {rest : List Followup}
      {depth depth₁ depth' : Nat} {run mid run' : Run} {ds ds' : List RuleEvent} (hd : depth < max)
      (ht : run.engine.target? target = some (epoch, rule))
      (h : Unfolds max (.attempt ⟨target.scope, epoch, rule, f.context⟩) (depth + 1) run ds depth₁ mid)
      (hrest : Unfolds max (.followups f rest) (depth₁ - 1) mid ds' depth' run') :
      Unfolds max (.followups f (.fireRule target :: rest)) depth run (ds ++ ds') depth' run'

section Functions

variable {max depth : Nat} {t : Option EventCascade}

theorem applyFollowup_of_ne {x : Followup} (hx : ∀ target, x ≠ .fireRule target)
    (cascade : Option Cascade) (f : Firing) (run : Run) :
    applyFollowup cascade f run x = applyFollowup none f run x := by
  cases x with
  | fireRule target => exact absurd rfl (hx target)
  | setEnabled | expireEffect => rfl

theorem followupRuleEvents_of_ne {x : Followup} (hx : ∀ target, x ≠ .fireRule target)
    (t : Option EventCascade) (f : Firing) (run : Run) :
    followupRuleEvents t f run x = followupRuleEvents none f run x := by
  cases x with
  | fireRule target => exact absurd rfl (hx target)
  | setEnabled | expireEffect => rfl

def Tells (max depth : Nat) : Option EventCascade → Prop
  | none => max ≤ depth
  | some t => depth < max ∧
    ∀ f run, Unfolds max (.attempt f) (depth + 1) run (t.ruleEvents f run) (depth + 1) (t.fire f run)

theorem unfolds_followups (ht : Tells max depth t) (f : Firing) (left : List Followup) (run : Run) :
    Unfolds max (.followups f left) depth run (followupsRuleEvents t f left run) depth
      (left.foldl (applyFollowup (t.map EventCascade.fire) f) run) := by
  induction left generalizing run with
  | nil => exact .settled f depth run
  | cons x rest ih =>
    have hrest := ih (applyFollowup (t.map EventCascade.fire) f run x)
    rw [followupsRuleEvents, List.foldl_cons]
    cases x with
    | fireRule target =>
      cases t with
      | none => exact .tooDeep ht hrest
      | some t =>
        cases htarget : run.engine.target? target with
        | none =>
          have hruleEvents : followupRuleEvents (some t) f run (.fireRule target) = [] := by
            simp only [followupRuleEvents, htarget]
          have hrun : applyFollowup ((some t).map EventCascade.fire) f run (.fireRule target) =
              run.fail f "fire_trigger" (EngineError.ruleNotFound target).message := by
            simp only [applyFollowup, Option.map_some, htarget]
          rw [hrun] at hrest
          rw [hruleEvents, hrun]
          exact .missing ht.1 htarget hrest
        | some found =>
          obtain ⟨epoch, rule⟩ := found
          have hruleEvents : followupRuleEvents (some t) f run (.fireRule target) =
              t.ruleEvents ⟨target.scope, epoch, rule, f.context⟩ run := by
            simp only [followupRuleEvents, htarget]
          have hrun : applyFollowup ((some t).map EventCascade.fire) f run (.fireRule target) =
              t.fire ⟨target.scope, epoch, rule, f.context⟩ run := by
            simp only [applyFollowup, Option.map_some, htarget]
          rw [hrun] at hrest
          rw [hruleEvents, hrun]
          exact .cascaded ht.1 htarget (ht.2 _ run) hrest
    | setEnabled target enabled => exact .followed (by simp) hrest
    | expireEffect actor effect stat after => exact .followed (by simp) hrest

theorem unfolds_actions (ht : Tells max depth t) (s : Stretch) (resumed : Bool) (i : Nat)
    (actions : List Action) (run : Run) (hdrop : s.firing.rule.actions.drop i = actions) :
    Unfolds max (.actions s resumed i) depth run (actionRuleEvents t s resumed i actions run) depth
      (runActions (t.map EventCascade.fire) s.firing resumed i actions run) := by
  induction actions generalizing s resumed i run with
  | nil =>
    refine .finished resumed depth run ?_
    rw [← List.head?_drop, hdrop]
    rfl
  | cons a rest ih =>
    have ha : s.firing.rule.actions[i]? = some a := by
      rw [← List.head?_drop, hdrop]
      rfl
    have hrest : (s.act i).firing.rule.actions.drop (i + 1) = rest := by
      rw [Stretch.firing_act, ← List.tail_drop, hdrop]
      rfl
    rw [runActions_cons]
    unfold actionRuleEvents
    split
    · rename_i wait hw
      have hres : resumed = false ∧ a.wait? = some wait := by
        cases resumed <;> simp_all
      rw [hres.1]
      unfold defer
      cases hdue : run.now.after? wait with
      | some due => exact .deferred depth ha hres.2 hdue
      | none => exact .stranded depth ha hres.2 hdue
    · rename_i hw
      have hres : resumed = true ∨ a.wait? = none := by
        cases resumed <;> simp_all
      have hdone := unfolds_followups ht s.firing (run.act s.firing a).1.followups (run.act s.firing a).2
      dsimp only
      cases hc : (run.act s.firing a).1.cancelRest with
      | true => exact .calledOff ha hres hc hdone
      | false => exact .acted ha hres hc hdone (ih _ _ _ _ hrest)

theorem unfolds_attemptWith (ht : Tells max depth t) (f : Firing) (run : Run) :
    Unfolds max (.attempt f) depth run (attemptRuleEventsWith t depth f run) depth
      (attemptWith (t.map EventCascade.fire) f run) := by
  unfold attemptRuleEventsWith attemptWith
  split
  · exact .fired ‹_› (unfolds_actions ht ⟨f, run.now, []⟩ false 0 _ _ rfl)
  · exact .refused depth ‹_›

theorem tells_ruleEventCascade? {remaining : Nat} (h : remaining + depth = max) :
    Tells max depth (eventCascade? remaining depth) := by
  induction remaining generalizing depth with
  | zero => exact (by omega : max ≤ depth)
  | succ remaining ih =>
    refine ⟨by omega, fun f run => ?_⟩
    dsimp only
    rw [attemptRuleEvents_eq, attempt_eq remaining (depth + 1)]
    exact unfolds_attemptWith (ih (by omega)) f run

end Functions

end Run

namespace Passage

open Run

variable {max depth : Nat}

def ruleEvents (max depth : Nat) (run : Run) : Passage → List RuleEvent
  | offers fs => attemptsRuleEvents (max - depth) depth fs run
  | attempt f => attemptRuleEvents (max - depth) depth f run
  | actions s resumed i =>
    actionRuleEvents (eventCascade? (max - depth) depth) s resumed i (s.firing.rule.actions.drop i) run
  | followups f rest => followupsRuleEvents (eventCascade? (max - depth) depth) f rest run

def outcome (max depth : Nat) (run : Run) : Passage → Run
  | offers fs => attempts (max - depth) fs run
  | attempt f => Run.attempt (max - depth) f run
  | actions s resumed i =>
    runActions ((eventCascade? (max - depth) depth).map EventCascade.fire) s.firing resumed i
      (s.firing.rule.actions.drop i) run
  | followups f rest =>
    rest.foldl (applyFollowup ((eventCascade? (max - depth) depth).map EventCascade.fire) f) run

theorem unfolds (hd : depth ≤ max) (passage : Passage) (run : Run) :
    Unfolds max passage depth run (passage.ruleEvents max depth run) depth
      (passage.outcome max depth run) := by
  have ht : Tells max depth (eventCascade? (max - depth) depth) := tells_ruleEventCascade? (by omega)
  have hattempt (f : Firing) (run : Run) : Unfolds max (.attempt f) depth run
      (attemptRuleEvents (max - depth) depth f run) depth (Run.attempt (max - depth) f run) := by
    rw [attemptRuleEvents_eq, attempt_eq (max - depth) depth]
    exact unfolds_attemptWith ht f run
  cases passage with
  | offers fs =>
    induction fs generalizing run with
    | nil => exact .done depth run
    | cons f fs ih => exact .offered (hattempt f run) (ih _)
  | attempt f => exact hattempt f run
  | actions s resumed i => exact unfolds_actions ht s resumed i _ run rfl
  | followups f rest => exact unfolds_followups ht f rest run

end Passage

namespace Run

variable {max depth depth' : Nat} {passage : Passage} {run run' : Run} {ds : List RuleEvent}

theorem eventCascade?_of_lt (hd : depth < max) : eventCascade? (max - depth) depth =
    some ⟨attempt (max - (depth + 1)), attemptRuleEvents (max - (depth + 1)) (depth + 1)⟩ := by
  obtain ⟨n, hn⟩ : ∃ n, max - depth = n + 1 := ⟨max - depth - 1, by omega⟩
  rw [hn, show max - (depth + 1) = n by omega]
  rfl

theorem eventCascade?_of_le (hd : max ≤ depth) : eventCascade? (max - depth) depth = none := by
  rw [show max - depth = 0 by omega]
  rfl

theorem drop_eq_cons {f : Firing} {i : Nat} {a : Action} (ha : f.rule.actions[i]? = some a) :
    f.rule.actions.drop i = a :: f.rule.actions.drop (i + 1) := by
  obtain ⟨hi, rfl⟩ := List.getElem?_eq_some_iff.mp ha
  exact List.drop_eq_getElem_cons hi

theorem runActions_of_act {cascade : Option Cascade} {f : Firing} {resumed : Bool} {a : Action}
    (hw : resumed = true ∨ a.wait? = none) (i : Nat) (rest : List Action) (run : Run) :
    runActions cascade f resumed i (a :: rest) run =
      if (run.act f a).1.cancelRest then
        (run.act f a).1.followups.foldl (applyFollowup cascade f) (run.act f a).2
      else runActions cascade f false (i + 1) rest
        ((run.act f a).1.followups.foldl (applyFollowup cascade f) (run.act f a).2) := by
  rw [runActions_cons, show (if resumed then none else a.wait?) = none by
    rcases hw with rfl | hw <;> simp_all]

theorem actionRuleEvents_of_act {t : Option EventCascade} {s : Stretch} {resumed : Bool} {a : Action}
    (hw : resumed = true ∨ a.wait? = none) (i : Nat) (rest : List Action) (run : Run) :
    actionRuleEvents t s resumed i (a :: rest) run =
      followupsRuleEvents t s.firing (run.act s.firing a).1.followups (run.act s.firing a).2 ++
        if (run.act s.firing a).1.cancelRest then [.stopped (s.act i) .calledOff]
        else actionRuleEvents t (s.act i) false (i + 1) rest
          ((run.act s.firing a).1.followups.foldl (applyFollowup (t.map EventCascade.fire) s.firing)
            (run.act s.firing a).2) := by
  rw [actionRuleEvents, show (if resumed then none else a.wait?) = none by
    rcases hw with rfl | hw <;> simp_all]

theorem Unfolds.eq (h : Unfolds max passage depth run ds depth' run') (hd : depth ≤ max) :
    ds = passage.ruleEvents max depth run ∧ depth' = depth ∧ run' = passage.outcome max depth run := by
  induction h with
  | done => exact ⟨rfl, rfl, rfl⟩
  | offered h hrest ih ihrest =>
    obtain ⟨rfl, rfl, rfl⟩ := ih hd
    obtain ⟨rfl, rfl, rfl⟩ := ihrest hd
    exact ⟨rfl, rfl, rfl⟩
  | refused depth hm =>
    simp only [Passage.ruleEvents, Passage.outcome, attemptRuleEvents_eq, attempt_eq _ depth,
      attemptRuleEventsWith, attemptWith, if_neg hm, and_self]
  | fired hm h ih =>
    obtain ⟨rfl, rfl, rfl⟩ := ih hd
    rename_i depth _
    simp only [Passage.ruleEvents, Passage.outcome, attemptRuleEvents_eq, attempt_eq _ depth,
      attemptRuleEventsWith, attemptWith, if_pos hm, List.drop_zero, enter, and_self]
  | finished resumed depth run ha =>
    have hdrop := List.drop_eq_nil_of_le (List.getElem?_eq_none_iff.mp ha)
    simp only [Passage.ruleEvents, Passage.outcome, hdrop, actionRuleEvents, runActions, and_self]
  | deferred depth ha hw hdue =>
    simp only [Passage.ruleEvents, Passage.outcome, drop_eq_cons ha, actionRuleEvents, runActions_cons, hw,
      defer, hdue, Bool.false_eq_true, if_false, and_self]
  | stranded depth ha hw hdue =>
    simp only [Passage.ruleEvents, Passage.outcome, drop_eq_cons ha, actionRuleEvents, runActions_cons, hw,
      defer, hdue, Bool.false_eq_true, if_false, and_self]
  | calledOff ha hw hc h ih =>
    obtain ⟨rfl, rfl, rfl⟩ := ih hd
    simp only [Passage.ruleEvents, Passage.outcome, drop_eq_cons ha, actionRuleEvents_of_act hw,
      runActions_of_act hw, hc, if_true, and_self]
  | acted ha hw hc h hrest ih ihrest =>
    obtain ⟨rfl, rfl, rfl⟩ := ih hd
    obtain ⟨rfl, rfl, rfl⟩ := ihrest hd
    simp only [Passage.ruleEvents, Passage.outcome, drop_eq_cons ha, actionRuleEvents_of_act hw,
      runActions_of_act hw, hc, Bool.false_eq_true, if_false, Stretch.firing_act, and_self]
  | settled => exact ⟨rfl, rfl, rfl⟩
  | followed hx h ih =>
    obtain ⟨rfl, rfl, rfl⟩ := ih hd
    simp only [Passage.ruleEvents, Passage.outcome, followupsRuleEvents, List.foldl_cons,
      applyFollowup_of_ne hx, followupRuleEvents_of_ne hx, and_self]
  | tooDeep hmax h ih =>
    obtain ⟨rfl, rfl, rfl⟩ := ih hd
    simp only [Passage.ruleEvents, Passage.outcome, eventCascade?_of_le hmax, followupsRuleEvents,
      followupRuleEvents, List.foldl_cons, Option.map_none, applyFollowup, List.nil_append, and_self]
  | missing hlt ht h ih =>
    obtain ⟨rfl, rfl, rfl⟩ := ih hd
    simp only [Passage.ruleEvents, Passage.outcome, eventCascade?_of_lt hlt, followupsRuleEvents,
      followupRuleEvents, List.foldl_cons, Option.map_some, applyFollowup, ht, List.nil_append, and_self]
  | cascaded hlt ht h hrest ih ihrest =>
    obtain ⟨rfl, rfl, rfl⟩ := ih hlt
    obtain ⟨rfl, rfl, rfl⟩ := ihrest hd
    simp only [Passage.ruleEvents, Passage.outcome, eventCascade?_of_lt hlt, followupsRuleEvents,
      followupRuleEvents, List.foldl_cons, Option.map_some, applyFollowup, ht, Nat.add_sub_cancel, and_self]

theorem unfolds_iff (hd : depth ≤ max) : Unfolds max passage depth run ds depth' run' ↔
    ds = passage.ruleEvents max depth run ∧ depth' = depth ∧ run' = passage.outcome max depth run := by
  constructor
  · exact fun h => h.eq hd
  · rintro ⟨rfl, rfl, rfl⟩
    exact passage.unfolds hd run

end Run

end WorldTriggers
