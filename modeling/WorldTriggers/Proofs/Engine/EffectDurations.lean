import WorldTriggers.Proofs.Effects
import WorldTriggers.Proofs.Engine.WorldHistory

namespace WorldTriggers

def Job.Ends (actor : ActorId) (effect : String) : Job → Prop
  | expireEffect k name _ => k = actor ∧ name = effect
  | ruleTimer .. => False
  | continuation _ => False

instance (actor : ActorId) (effect : String) : DecidablePred (Job.Ends actor effect) := by
  intro job
  cases job <;> unfold Job.Ends <;> infer_instance

def Action.Concerns (a : Action) (f : Firing) (actor : ActorId) (effect : String) : Prop :=
  f.context.actor = some actor ∧ (a.params.string "effect").toOption = some effect

instance (a : Action) (f : Firing) (actor : ActorId) (effect : String) :
    Decidable (a.Concerns f actor effect) := by
  unfold Action.Concerns
  infer_instance

structure Run.Applies (run : Run) (f : Firing) (a : Action) (actor : ActorId) (effect : String)
    (duration : Span) : Prop where
  kind : a.kind = "apply_effect"
  concerns : a.Concerns f actor effect
  duration : (ActionHandler.effectDuration a.params).toOption = some (some duration)
  before : run.world.actorHasEffect actor effect = false
  after : (run.act f a).2.world.actorHasEffect actor effect = true

instance (run : Run) (f : Firing) (a : Action) (actor : ActorId) (effect : String) (duration : Span) :
    Decidable (run.Applies f a actor effect duration) :=
  decidable_of_iff (a.kind = "apply_effect" ∧ a.Concerns f actor effect ∧
      (ActionHandler.effectDuration a.params).toOption = some (some duration) ∧
      run.world.actorHasEffect actor effect = false ∧
      (run.act f a).2.world.actorHasEffect actor effect = true)
    ⟨fun ⟨hk, hc, hd, hb, ha⟩ => ⟨hk, hc, hd, hb, ha⟩,
      fun ⟨hk, hc, hd, hb, ha⟩ => ⟨hk, hc, hd, hb, ha⟩⟩

/-- What may end an effect that is due to end: it is removed, or time has come. -/
def WorldEvent.Cuts (actor : ActorId) (effect : String) (due : Instant) : WorldEvent → Prop
  | called (.advance _ _ now) => due ≤ now
  | acted f a _ => a.kind = "remove_effect" ∧ a.Concerns f actor effect
  | _ => False

instance (actor : ActorId) (effect : String) (due : Instant) :
    DecidablePred (WorldEvent.Cuts actor effect due) := by
  intro m
  cases m with
  | called op => cases op <;> unfold WorldEvent.Cuts <;> infer_instance
  | acted | ended =>
    unfold WorldEvent.Cuts
    infer_instance

/-- Between operations a world may change, except for the effects in it. -/
def WorldEvent.Steady : World → List WorldEvent → Prop
  | _, [] => True
  | w, m :: rest =>
    (∀ op v, m = .called op → op.world? = some v → w.SameEffects v) ∧ Steady (m.world?.getD w) rest

theorem WorldEvent.steady_append {w : World} {ms ms' : List WorldEvent} :
    Steady w (ms ++ ms') ↔ Steady w ms ∧ Steady (worldAfter w ms) ms' := by
  induction ms generalizing w with
  | nil => simp [Steady, worldAfter]
  | cons m ms ih =>
    simp only [List.cons_append, Steady, ih, and_assoc]
    rfl

def WorldEvent.isSteady : World → List WorldEvent → Bool
  | _, [] => true
  | w, m :: rest =>
    (match m with
      | .called op => op.world?.all fun v => v.effectsOf == w.effectsOf
      | _ => true) && isSteady (m.world?.getD w) rest

theorem WorldEvent.steady_of_isSteady {w : World} {ms : List WorldEvent} (h : isSteady w ms = true) :
    Steady w ms := by
  induction ms generalizing w with
  | nil => trivial
  | cons m ms ih =>
    obtain ⟨hcalled, hrest⟩ := Bool.and_eq_true_iff.mp h
    refine ⟨?_, ih hrest⟩
    rintro op v rfl hv
    dsimp only at hcalled
    rw [hv] at hcalled
    exact World.sameEffects_of_effectsOf (eq_of_beq hcalled)

namespace Run

open ActionHandler Engine

variable {run : Run} {f : Firing} {a : Action} {actor : ActorId} {effect : String} {stat : Option StatChange}
  {after : Span}

theorem actorHasEffect_act (hactions : run.engine.settings.actions = .builtin)
    (h : run.world.actorHasEffect actor effect = true)
    (hstays : ¬(a.kind = "remove_effect" ∧ a.Concerns f actor effect)) :
    (run.act f a).2.world.actorHasEffect actor effect = true := by
  rcases act_cases hactions f a with ⟨-, hworld⟩ | ⟨handler, hact, hok⟩
  · rwa [hworld]
  rcases effects_cases hact with ⟨-, rfl⟩ | ⟨hk, rfl⟩ | ⟨-, -, hspares⟩
  · obtain ⟨k, name, _, _, _, -, -, -, -, hadd, -⟩ := applyEffect_eq_ok hok
    rw [(World.addEffect_eq_ok hadd).2, h, Bool.true_or]
  · obtain ⟨k, name, _, hk', hname, hremove, -⟩ := ActionHandler.removeEffect_eq_ok hok
    have hother : ¬(actor = k ∧ effect = name) := by
      rintro ⟨rfl, rfl⟩
      exact hstays ⟨hk, hk', by rw [hname]; rfl⟩
    rw [World.removeEffect_eq_ok hremove, h, decide_eq_true hother]
    rfl
  · rw [(hspares _ _ _ _ hok).1, h]

theorem expireEffect_mem_act (hactions : run.engine.settings.actions = .builtin)
    (h : .expireEffect actor effect stat after ∈ (run.act f a).1.followups) :
    a.Concerns f actor effect ∧ (effectDuration a.params).toOption = some (some after) ∧
      run.world.actorHasEffect actor effect = false := by
  rcases act_cases hactions f a with ⟨hnone, -⟩ | ⟨handler, hact, hok⟩
  · rw [hnone] at h
    cases h
  generalize (run.act f a).1 = outcome, (run.act f a).2.world = world at h hok
  rcases effects_cases hact with ⟨-, rfl⟩ | ⟨-, rfl⟩ | ⟨-, -, hspares⟩
  · obtain ⟨k, name, change, duration, isNew, hk, hname, -, hduration, hadd, rfl⟩ := applyEffect_eq_ok hok
    cases isNew with
    | false => cases h
    | true =>
      obtain ⟨after', hafter', heq⟩ := Option.map_eq_some_iff.mp (Option.mem_toList.mp h)
      obtain ⟨rfl, rfl, -, rfl⟩ := Followup.expireEffect.inj heq
      refine ⟨⟨hk, by rw [hname]; rfl⟩, by rw [hduration, hafter']; rfl, ?_⟩
      simpa using (World.addEffect_eq_ok hadd).1
  · obtain ⟨-, -, -, -, -, -, rfl⟩ := ActionHandler.removeEffect_eq_ok hok
    cases h
  · exact absurd h ((hspares _ _ _ _ hok).2 actor effect stat after)

end Run

namespace Engine

open Run

variable {e e' : Engine} {w w' : World} {op : Operation} {ms : List WorldEvent} {now due : Instant}
  {actor : ActorId} {effect : String}

def EndsFrom (e : Engine) (actor : ActorId) (effect : String) (due : Instant) : Prop :=
  ∀ k r, e.expiries.get? k = some r → r.payload.Ends actor effect → due ≤ r.due

instance (e : Engine) (actor : ActorId) (effect : String) (due : Instant) :
    Decidable (e.EndsFrom actor effect due) :=
  decidable_of_iff (∀ r ∈ e.expiries.values, r.payload.Ends actor effect → due ≤ r.due)
    ⟨fun h k r hr => h r (SortedMap.mem_values.mpr ⟨k, hr⟩), fun h r hr => by
      obtain ⟨k, hr⟩ := SortedMap.mem_values.mp hr
      exact h k r hr⟩

theorem EndsFrom.congr (h : e.EndsFrom actor effect due) (heq : e'.expiries = e.expiries) :
    e'.EndsFrom actor effect due := by
  rw [EndsFrom, heq]
  exact h

theorem EndsFrom.taken {k : Handle} {r : Registration Job} (h : e.EndsFrom actor effect due)
    (hl : e.Linked) (hr : e.job? k = some r) (now : Instant) :
    (e.taken k r now).EndsFrom actor effect due := by
  intro j q hq
  rw [expiries_taken hl hr, SortedMap.get?_erase] at hq
  split at hq
  · cases hq
  · exact h j q hq

theorem EndsFrom.scheduleExpiry {k : ActorId} {name : String} {later : Instant}
    (h : e.EndsFrom actor effect due) (stat : Option StatChange)
    (hlater : k = actor → name = effect → due ≤ later) :
    (e.scheduleExpiry k name stat later).EndsFrom actor effect due := by
  intro j q hq hends
  rw [expiries_scheduleExpiry, SortedMap.get?_insert] at hq
  split at hq
  · cases hq
    exact hlater hends.1 hends.2
  · exact h j q hq hends

theorem EndsFrom.followups {run : Run} {f : Firing} {left : List Followup} (hl : run.engine.Linked)
    (h : run.engine.EndsFrom actor effect due)
    (hleft : ∀ stat after later, .expireEffect actor effect stat after ∈ left →
      run.now.after? after = some later → due ≤ later) :
    (left.foldl (applyFollowup none f) run).engine.EndsFrom actor effect due := by
  induction left generalizing run with
  | nil => exact h
  | cons x rest ih =>
    have hrunSteps := (runSteps_applyFollowup f run x).1
    refine ih (hl.steps hrunSteps.steps) ?_ fun stat after later hx hlater => ?_
    · unfold applyFollowup
      cases x with
      | setEnabled target enabled =>
        dsimp only
        split
        · exact h.congr (hl.expiries_setEnabled ‹_›)
        · exact h
      | fireRule target => exact h
      | expireEffect k name stat after =>
        dsimp only
        split
        · refine h.scheduleExpiry stat ?_
          rintro rfl rfl
          exact hleft stat after _ List.mem_cons_self ‹_›
        · exact h
    · rw [hrunSteps.now] at hlater
      exact hleft stat after later (List.mem_cons_of_mem _ hx) hlater

theorem EndsFrom.carryOut {run : Run} (hl : run.engine.Linked) (h : run.engine.EndsFrom actor effect due)
    (f : Firing) (a : Action) (hnew : ∀ stat after later,
      .expireEffect actor effect stat after ∈ (run.act f a).1.followups →
        run.now.after? after = some later → due ≤ later) :
    (run.carryOut f a).engine.EndsFrom actor effect due := by
  refine EndsFrom.followups (by rwa [engine_act]) (by rwa [engine_act]) ?_
  rwa [now_act]

/-- An effect is active on an actor and will be until an instant that is still to come. -/
structure ActiveUntil (actor : ActorId) (effect : String) (due : Instant) (last : Option Operation)
    (e : Engine) (w : World) : Prop where
  active : w.actorHasEffect actor effect = true
  ends : e.EndsFrom actor effect due
  early : ∀ budget v now, last = some (.advance budget v now) → now < due

theorem activeUntil_of_applies {run : Run} {f : Firing} {a : Action} {duration : Span}
    (hl : run.engine.Linked) (hactions : run.engine.settings.actions = .builtin)
    (ht : op.time? = some run.now) (happlies : run.Applies f a actor effect duration)
    (hduration : 0 < duration) (hdue : run.now.after? duration = some due)
    (hfree : run.engine.EndsFrom actor effect due) :
    ActiveUntil actor effect due (some op) (run.carryOut f a).engine (run.carryOut f a).world where
  active := by
    rw [Run.carryOut, (runSteps_followups f _ _).2]
    exact happlies.after
  ends := by
    refine hfree.carryOut hl f a fun stat after later hx hlater => ?_
    obtain ⟨-, hafter, -⟩ := expireEffect_mem_act hactions hx
    obtain rfl := Option.some.inj (Option.some.inj (hafter.symm.trans happlies.duration))
    exact (Option.some.inj (hdue.symm.trans hlater)).le
  early budget v now hop := by
    obtain rfl := Option.some.inj hop
    obtain rfl : now = run.now := Option.some.inj ht
    rw [(Instant.after?_eq_some_iff.mp hdue).1]
    exact Int.lt_add_of_pos_right _ hduration

theorem ActiveUntil.called {last : Option Operation} (h : ActiveUntil actor effect due last e w)
    (hsame : ∀ v, op.world? = some v → w.SameEffects v)
    (hcuts : ¬(WorldEvent.called op).Cuts actor effect due) :
    ActiveUntil actor effect due (some op) e (op.world?.getD w) where
  active := by
    cases hworld : op.world? with
    | none => exact h.active
    | some v => exact (hsame v hworld actor effect).trans h.active
  ends := h.ends
  early budget v now hop := by
    obtain rfl := Option.some.inj hop
    exact Int.not_le.mp hcuts

theorem ActiveUntil.worldStep (hl : e.Linked) (h : ActiveUntil actor effect due (some op) e w)
    (hp : WorldStep op e w ms e' w') (hcuts : ∀ m ∈ ms, ¬m.Cuts actor effect due) :
    ActiveUntil actor effect due (some op) e' w' := by
  cases hp with
  | aside hop ha hp => exact ⟨h.active, h.ends.congr (hl.expiries_perform ha hp hop), h.early⟩
  | taken ht hr => exact ⟨h.active, h.ends.taken hl hr _, h.early⟩
  | @ended _ k r budget u now j name stat hop hr hdue hpayload =>
    refine ⟨?_, h.ends.taken hl hr _, h.early⟩
    unfold expireEffect
    split
    · rename_i hremove
      -- What ends now is due by now, and thus too early to be an end of this effect.
      have hother : ¬(actor = j ∧ effect = name) := by
        rintro ⟨rfl, rfl⟩
        have hlater := h.ends k r
          (get?_expiries_eq_some_iff.mpr ⟨hr, by rw [hpayload]; rfl⟩) (by rw [hpayload]; exact ⟨rfl, rfl⟩)
        have hearly := h.early budget u now (by rw [hop])
        exact absurd (hlater.trans hdue) (Int.not_le.mpr hearly)
      rw [World.removeEffect_eq_ok hremove, h.active, decide_eq_true hother]
      rfl
    · exact h.active
  | @runSteps run run' ms ht hs =>
    cases hs with
    | told => exact h
    | entered hf => exact ⟨h.active, h.ends.congr (hl.expiries_recordFiring hf _), h.early⟩
    | deferred hf ha hw hd =>
      exact ⟨h.active, h.ends.congr (hl.expiries_scheduleContinuation ..), h.early⟩
    | acted hactions f a =>
      refine ⟨?_, h.ends.carryOut hl f a fun stat after later hx _ => ?_, h.early⟩
      · rw [Run.carryOut, (runSteps_followups f _ _).2]
        exact actorHasEffect_act hactions h.active (hcuts _ (List.mem_singleton_self _))
      · -- Applied anew, it would have to be gone.
        have hgone := (expireEffect_mem_act hactions hx).2.2
        rw [h.active] at hgone
        cases hgone

def ActiveSince (w : World) (before : List WorldEvent) (m : WorldEvent) (actor : ActorId) (effect : String)
    (due : Instant) (last : Option Operation) (log : List WorldEvent) (e : Engine) (v : World) : Prop :=
  v = WorldEvent.worldAfter w log ∧ ∀ later, log = before ++ m :: later → WorldEvent.Steady w log →
    (∀ n ∈ later, ¬n.Cuts actor effect due) → ActiveUntil actor effect due last e v

section ActiveSince

variable {before log : List WorldEvent} {m n : WorldEvent} {last : Option Operation} {v v' : World}

theorem eq_or_exists_of_snoc {later : List WorldEvent} (h : log ++ [n] = before ++ m :: later) :
    (log = before ∧ n = m ∧ later = []) ∨ ∃ sooner, log = before ++ m :: sooner ∧ later = sooner ++ [n] := by
  rcases List.eq_nil_or_concat' later with rfl | ⟨sooner, k, rfl⟩
  · obtain ⟨rfl, hn⟩ := List.append_inj' h rfl
    exact .inl ⟨rfl, List.singleton_inj.mp hn, rfl⟩
  · rw [← List.cons_append, ← List.append_assoc] at h
    obtain ⟨rfl, hn⟩ := List.append_inj' h rfl
    exact .inr ⟨sooner, rfl, by rw [List.singleton_inj.mp hn]⟩

theorem ActiveSince.called (hm : ∀ op, m ≠ .called op)
    (h : ActiveSince w before m actor effect due last log e v) (op : Operation) :
    ActiveSince w before m actor effect due (some op) (log ++ [.called op]) e (op.world?.getD v) := by
  obtain ⟨rfl, hactive⟩ := h
  refine ⟨by rw [WorldEvent.worldAfter_append]; rfl, fun later hlog hsteady hcuts => ?_⟩
  obtain ⟨hsteady, hsame, -⟩ := WorldEvent.steady_append.mp hsteady
  rcases eq_or_exists_of_snoc hlog with ⟨-, hcalled, -⟩ | ⟨sooner, rfl, rfl⟩
  · exact absurd hcalled.symm (hm op)
  · obtain ⟨hcuts, hcut⟩ := List.forall_mem_append.mp hcuts
    exact (hactive sooner rfl hsteady hcuts).called (hsame op · rfl) (hcut _ (List.mem_singleton_self _))

theorem ActiveSince.worldStep (hl : e.Linked) (h : ActiveSince w before m actor effect due (some op) log e v)
    (hp : WorldStep op e v ms e' v')
    (happlied : ms = [m] → ActiveUntil actor effect due (some op) e' v') :
    ActiveSince w before m actor effect due (some op) (log ++ ms) e' v' := by
  obtain ⟨rfl, hactive⟩ := h
  refine ⟨by rw [WorldEvent.worldAfter_append, hp.world], fun later hlog hsteady hcuts => ?_⟩
  have hbefore := (WorldEvent.steady_append.mp hsteady).1
  rcases hp.eq_nil_or_single with rfl | ⟨n, rfl⟩
  · rw [List.append_nil] at hlog
    exact (hactive later hlog hbefore hcuts).worldStep hl hp (List.forall_mem_nil _)
  · rcases eq_or_exists_of_snoc hlog with ⟨-, rfl, -⟩ | ⟨sooner, rfl, rfl⟩
    · exact happlied rfl
    · obtain ⟨hcuts, hcut⟩ := List.forall_mem_append.mp hcuts
      exact (hactive sooner rfl hbefore hcuts).worldStep hl hp hcut

end ActiveSince

/-- An effect that is applied for a time, with no end of it left over that comes earlier, is active at
each point of the history until it is removed or `advance` is called when its time has come. -/
theorem lasting_of_worldHistory {settings : Settings} {ops : List Operation} {before later : List WorldEvent}
    {run : Run} {f : Firing} {a : Action} {duration : Span} (hactions : settings.actions = .builtin)
    (ha : ∀ op ∈ ops, op.Authored)
    (hworldHistory : before ++ .acted f a run :: later <+: worldHistory settings ops)
    (hsteady : WorldEvent.Steady w (before ++ .acted f a run :: later))
    (happlies : run.Applies f a actor effect duration) (hduration : 0 < duration)
    (hdue : run.now.after? duration = some due) (hfree : run.engine.EndsFrom actor effect due)
    (hlater : ∀ m ∈ later, ¬m.Cuts actor effect due) :
    (WorldEvent.worldAfter w (before ++ .acted f a run :: later)).actorHasEffect actor effect = true := by
  have hstart : ActiveSince w before (.acted f a run) actor effect due none [] (ofSettings settings) w :=
    ⟨rfl, fun later hlog => by simp at hlog⟩
  obtain ⟨-, -, -, ⟨-, hpoints⟩, -⟩ := worldHistory_induct hactions ha hstart
    (fun op _ last log d v h => h.called (by simp) op) fun op _ log d v ms d' v' hd hp h => by
      refine h.worldStep hd hp fun hms => ?_
      -- Of all steps, only the one of this very event makes the effect active until then.
      cases hp with
      | runSteps ht hs =>
        cases hs with
        | acted hactions =>
          obtain ⟨rfl, rfl, rfl⟩ := WorldEvent.acted.inj (List.singleton_inj.mp hms)
          exact activeUntil_of_applies hd hactions ht happlies hduration hdue hfree
        | told | entered | deferred => cases hms
      | aside | taken | ended => cases hms
  obtain ⟨last, d, v, rfl, hactive⟩ := hpoints _ hworldHistory
  exact (hactive later rfl hsteady hlater).active

def cave : Content :=
  .ofRules (.room "cave") [
    .plain "mist" .enter [⟨"apply_effect", .ofList [("effect", .string "chilled"), ("duration", .int 60)], 0⟩],
    .plain "gust" .enter [⟨"apply_effect", .ofList [("effect", .string "chilled"), ("duration", .int 10)], 0⟩],
    .plain "hearth" .enter [⟨"remove_effect", .ofList [("effect", .string "chilled")], 0⟩]]

def cavern (effects : List String) : World :=
  { actors := .ofList [("alice", { id := "alice", name := "Alice", effects := .ofList effects })] }

def chilling (first second : RuleId) (now : Instant) : List Operation :=
  let alice : Context := { actor := some "alice" }
  [.advance 5 (cavern ["chilled"]) now,
    .fireRule (cavern []) ⟨.room "cave", second⟩ alice 6000000000,
    .fireRule (cavern ["chilled"]) ⟨.room "cave", "hearth"⟩ alice 5000000000,
    .fireRule (cavern []) ⟨.room "cave", first⟩ alice 0, .load cave 0]

theorem exists_acted (log : List WorldEvent) (i : Nat)
    (p : List WorldEvent → Firing → Action → Run → List WorldEvent → Bool)
    (h : (match log[i]? with
      | some (.acted f a run) => p (log.take i) f a run (log.drop (i + 1))
      | _ => false) = true) :
    ∃ before f a run later, log = before ++ .acted f a run :: later ∧ p before f a run later = true := by
  split at h
  · rename_i f a run hi
    obtain ⟨hlt, hget⟩ := List.getElem?_eq_some_iff.mp hi
    refine ⟨log.take i, f, a, run, log.drop (i + 1), ?_, h⟩
    rw [← hget, ← List.drop_eq_getElem_cons hlt, List.take_append_drop]
  · cases h

theorem lasting_chilled : ∃ before f a run later,
    worldHistory (.builtin 8) (chilling "mist" "gust" 12000000000) = before ++ .acted f a run :: later ∧
      run.Applies f a "alice" "chilled" 10000000000 ∧ run.engine.expiries.size = 1 ∧
      (WorldEvent.worldAfter (cavern []) (before ++ .acted f a run :: later)).actorHasEffect "alice"
        "chilled" = true := by
  obtain ⟨before, f, a, run, later, hworldHistory, hp⟩ :=
    exists_acted (worldHistory (.builtin 8) (chilling "mist" "gust" 12000000000)) 6
      (fun before f a run later => WorldEvent.isSteady (cavern []) (before ++ .acted f a run :: later) &&
        decide (run.Applies f a "alice" "chilled" 10000000000) && run.engine.expiries.size == 1 &&
        decide (run.now.after? 10000000000 = some 16000000000) &&
        decide (run.engine.EndsFrom "alice" "chilled" 16000000000) &&
        decide (∀ m ∈ later, ¬m.Cuts "alice" "chilled" 16000000000)) (by decide +kernel)
  simp only [Bool.and_eq_true, decide_eq_true_eq, beq_iff_eq] at hp
  obtain ⟨⟨⟨⟨⟨hsteady, happlies⟩, hsize⟩, hdue⟩, hfree⟩, hlater⟩ := hp
  have hauthored : ∀ op ∈ chilling "mist" "gust" 12000000000, op.Authored := by
    simp [chilling, Operation.Authored, cave, Content.Authored.ofRules]
  have hpoint : before ++ .acted f a run :: later <+:
      worldHistory (.builtin 8) (chilling "mist" "gust" 12000000000) := by
    rw [hworldHistory]
  exact ⟨before, f, a, run, later, hworldHistory, happlies, hsize,
    lasting_of_worldHistory rfl hauthored hpoint
    (WorldEvent.steady_of_isSteady hsteady) happlies (by decide) hdue hfree hlater⟩

/-- The end of the first gust, which is left over, cuts the second one short. -/
theorem chilled_cut_short : ∃ before f a run later,
    worldHistory (.builtin 8) (chilling "gust" "gust" 10000000000) = before ++ .acted f a run :: later ∧
      WorldEvent.Steady (cavern []) (before ++ .acted f a run :: later) ∧
      run.Applies f a "alice" "chilled" 10000000000 ∧
      run.now.after? 10000000000 = some 16000000000 ∧
      (∀ m ∈ later, ¬m.Cuts "alice" "chilled" 16000000000) ∧
      (WorldEvent.worldAfter (cavern []) (before ++ .acted f a run :: later)).actorHasEffect "alice"
        "chilled" = false := by
  obtain ⟨before, f, a, run, later, hworldHistory, hp⟩ :=
    exists_acted (worldHistory (.builtin 8) (chilling "gust" "gust" 10000000000)) 6
      (fun before f a run later => WorldEvent.isSteady (cavern []) (before ++ .acted f a run :: later) &&
        decide (run.Applies f a "alice" "chilled" 10000000000) &&
        decide (run.now.after? 10000000000 = some 16000000000) &&
        decide (∀ m ∈ later, ¬m.Cuts "alice" "chilled" 16000000000) &&
        !(WorldEvent.worldAfter (cavern []) (before ++ .acted f a run :: later)).actorHasEffect "alice"
          "chilled") (by decide +kernel)
  simp only [Bool.and_eq_true, decide_eq_true_eq, Bool.not_eq_true'] at hp
  obtain ⟨⟨⟨⟨hsteady, happlies⟩, hdue⟩, hlater⟩, hgone⟩ := hp
  exact ⟨before, f, a, run, later, hworldHistory, WorldEvent.steady_of_isSteady hsteady, happlies, hdue,
    hlater, hgone⟩

end Engine

end WorldTriggers
