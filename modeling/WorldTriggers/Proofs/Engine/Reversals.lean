import WorldTriggers.Proofs.Engine.Replaying

namespace WorldTriggers

theorem SortedMap.sum_insertEntry {κ α : Type} [Ord κ] {k : κ} {es : List (κ × α)}
    (h : lookup k es = none) (a : α) (f : α → Int) :
    ((insertEntry k a es).map fun e => f e.2).sum = f a + (es.map fun e => f e.2).sum := by
  induction es with
  | nil => rfl
  | cons e es ih =>
    obtain ⟨l, b⟩ := e
    unfold lookup at h
    split at h
    · cases h
    · unfold insertEntry
      have hrest := ih h
      split
      · rfl
      · contradiction
      · simp only [List.map_cons, List.sum_cons, hrest]
        omega

theorem SortedMap.sum_insert {κ α : Type} [Ord κ] [Std.TransOrd κ] [Std.LawfulEqOrd κ]
    {m : SortedMap κ α} {k : κ} (h : m.get? k = none) (a : α) (f : α → Int) :
    ((m.insert k a).values.map f).sum = f a + (m.values.map f).sum := by
  simpa [values, insert, Function.comp_def] using sum_insertEntry h a f

def Action.lasts? (a : Action) : Option Span :=
  if a.kind = "apply_effect" then (ActionHandler.effectDuration a.params).toOption.join else none

def Notice.delta (actor : ActorId) (stat : String) : Notice → Int
  | statDelta k s delta => if k = actor ∧ s = stat then delta else 0
  | _ => 0

def Job.amount (actor : ActorId) (stat : String) : Job → Int
  | expireEffect k _ (some s) => if k = actor ∧ s.stat = stat then s.amount else 0
  | _ => 0

namespace WorldEvent

def isTimed : WorldEvent → Bool
  | called _ => false
  | acted _ a _ => a.lasts?.isSome
  | ended .. => true

def timedDelta (actor : ActorId) (stat : String) (m : WorldEvent) : Int :=
  if m.isTimed then (m.emissions.map fun x => x.notice.delta actor stat).sum else 0

/-- A change of a stat for a time is not to be taken back as it is: its end would come after all time, or
its amount is the one that has no opposite. -/
def Forfeits (actor : ActorId) (stat : String) : WorldEvent → Prop
  | called _ => False
  | acted f a run =>
    (∃ after ∈ a.lasts?, run.now.after? after = none) ∧ (acted f a run).timedDelta actor stat ≠ 0
  | ended k _ change _ _ => k = actor ∧ ∃ s ∈ change, s.stat = stat ∧ s.amount ≤ Width.minInt 64

instance (actor : ActorId) (stat : String) : DecidablePred (Forfeits actor stat)
  | called _ => inferInstanceAs (Decidable False)
  | acted f a run => inferInstanceAs (Decidable ((∃ after ∈ a.lasts?, run.now.after? after = none) ∧
      (acted f a run).timedDelta actor stat ≠ 0))
  | ended k _ change _ _ => inferInstanceAs (Decidable (k = actor ∧ ∃ s ∈ change, s.stat = stat ∧
      s.amount ≤ Width.minInt 64))

end WorldEvent

def World.KeepsActors (w v : World) : Prop :=
  ∀ actor, w.actors.contains actor = true → v.actors.contains actor = true

theorem World.keepsActors_of_eq (w v : World) (h : w = v) : w.KeepsActors v := by
  subst h
  exact fun _ hactor => hactor

namespace Engine

open Run

variable {settings : Settings} {ops : List Operation} {op : Operation} {e₀ e e' : Engine}
  {w₀ w w' v : World} {log ms : List WorldEvent} {told : List Notice} {actor : ActorId} {stat : String}

def held (e : Engine) (actor : ActorId) (stat : String) : Int :=
  (e.expiries.values.map fun r => r.payload.amount actor stat).sum

def ExpiriesHaveActors (e : Engine) (w : World) : Prop :=
  ∀ h r actor effect change, e.expiries.get? h = some r →
    r.payload = .expireEffect actor effect change → w.actors.contains actor = true

theorem held_congr (h : e'.expiries = e.expiries) (actor : ActorId) (stat : String) :
    e'.held actor stat = e.held actor stat := by
  rw [held, h, held]

theorem held_scheduleExpiry (hl : e.Linked) (k : ActorId) (effect : String) (change : Option StatChange)
    (due : Instant) (actor : ActorId) (stat : String) :
    (e.scheduleExpiry k effect change due).held actor stat =
      (Job.expireEffect k effect change).amount actor stat + e.held actor stat := by
  have hnew : e.expiries.get? e.schedule.nextHandle = none := by
    rw [get?_expiries, hl.job?_nextHandle]
    rfl
  rw [held, expiries_scheduleExpiry, SortedMap.sum_insert hnew]
  rfl

theorem held_taken {h : Handle} {r : Registration Job} (hl : e.Linked) (hr : e.job? h = some r)
    (hp : r.payload.isExpiry = true) (now : Instant) (actor : ActorId) (stat : String) :
    e.held actor stat = r.payload.amount actor stat + (e.taken h r now).held actor stat := by
  have hgone : (e.expiries.erase h).get? h = none := by
    rw [SortedMap.get?_erase, if_pos rfl]
  have hback : (e.expiries.erase h).insert h r = e.expiries := by
    rw [SortedMap.insert_erase]
    refine SortedMap.ext_get? fun k => ?_
    rw [SortedMap.get?_insert]
    split
    · subst k
      exact (get?_expiries_eq_some_iff.mpr ⟨hr, hp⟩).symm
    · rfl
  have hsum := SortedMap.sum_insert hgone r fun r => r.payload.amount actor stat
  rw [hback] at hsum
  rw [held, held, expiries_taken hl hr, hsum]

theorem expiries_taken_of_other {h : Handle} {r : Registration Job} (hl : e.Linked)
    (hr : e.job? h = some r) (hp : r.payload.isExpiry = false) (now : Instant) :
    (e.taken h r now).expiries = e.expiries := by
  rw [expiries_taken hl hr]
  refine SortedMap.erase_eq_self ?_
  rw [get?_expiries, hr, Option.filter_some, hp]
  rfl

theorem expiries_applyFollowup {run : Run} {x : Followup} (hl : run.engine.Linked)
    (hx : ∀ k effect change after, x ≠ .expireEffect k effect change after) (f : Firing) :
    (applyFollowup none f run x).engine.expiries = run.engine.expiries := by
  unfold applyFollowup
  cases x with
  | setEnabled target enabled =>
    dsimp only
    split
    · exact hl.expiries_setEnabled ‹_›
    · rfl
  | fireRule target => rfl
  | expireEffect k effect change after => exact absurd rfl (hx k effect change after)

theorem expiries_followups {run : Run} {left : List Followup} (hl : run.engine.Linked)
    (hleft : ∀ k effect change after, .expireEffect k effect change after ∉ left) (f : Firing) :
    (left.foldl (applyFollowup none f) run).engine.expiries = run.engine.expiries := by
  induction left generalizing run with
  | nil => rfl
  | cons x rest ih =>
    have hfirst := expiries_applyFollowup hl (x := x)
      (fun k effect change after hx => hleft k effect change after (hx ▸ List.mem_cons_self)) f
    have hrest := ih (hl.steps (runSteps_applyFollowup f run x).1.steps)
      fun k effect change after hx => hleft k effect change after (List.mem_cons_of_mem _ hx)
    exact hrest.trans hfirst

section Act

variable {run : Run}

theorem contains_of_addEffect {effect : String} {isNew : Bool}
    (h : w.addEffect actor effect = .ok (isNew, w')) : w.actors.contains actor = true := by
  obtain ⟨a, ha, -⟩ := bind_eq_ok.mp h
  exact SortedMap.contains_eq_true_iff.mpr ⟨a, World.findActor_eq_ok.mp ha⟩

theorem timed_cases (hactions : run.engine.settings.actions = .builtin) (f : Firing) (a : Action) :
    ((a.lasts? = none ∨ (run.act f a).1.notices = []) ∧
        ∀ k effect change after, .expireEffect k effect change after ∉ (run.act f a).1.followups) ∨
      ∃ k effect change after, a.lasts? = some after ∧ run.world.actors.contains k = true ∧
        (run.act f a).1.notices = (change.map fun s => Notice.statDelta k s.stat s.amount).toList ∧
        (run.act f a).1.followups = [.expireEffect k effect change after] := by
  rcases act_cases hactions f a with ⟨hnone, -⟩ | ⟨handler, hact, hok⟩
  · rw [hnone]
    exact .inl ⟨.inr rfl, fun _ _ _ _ h => nomatch h⟩
  generalize (run.act f a).1 = outcome, (run.act f a).2.world = world at hok ⊢
  rcases ActionHandler.effects_cases hact with ⟨hk, rfl⟩ | ⟨-, rfl⟩ | ⟨hk, -, hspares⟩
  · obtain ⟨k, effect, change, duration, isNew, -, -, -, hduration, hadd, rfl⟩ :=
      ActionHandler.applyEffect_eq_ok hok
    have hlasts : a.lasts? = duration := by
      rw [Action.lasts?, if_pos hk, hduration]
      rfl
    cases isNew with
    | false => exact .inl ⟨.inr rfl, fun _ _ _ _ h => nomatch h⟩
    | true =>
      cases duration with
      | none => exact .inl ⟨.inl hlasts, fun _ _ _ _ h => nomatch h⟩
      | some after => exact .inr ⟨k, effect, change, after, hlasts, contains_of_addEffect hadd, rfl, rfl⟩
  · obtain ⟨-, -, -, -, -, -, rfl⟩ := ActionHandler.removeEffect_eq_ok hok
    exact .inl ⟨.inr rfl, fun _ _ _ _ h => nomatch h⟩
  · exact .inl ⟨.inl (if_neg hk), (hspares _ _ _ _ hok).2⟩

theorem sum_delta (k : ActorId) (effect : String) (change : Option StatChange) (actor : ActorId)
    (stat : String) :
    ((change.map fun s => Notice.statDelta k s.stat s.amount).toList.map (Notice.delta actor stat)).sum =
      (Job.expireEffect k effect change).amount actor stat := by
  cases change with
  | none => rfl
  | some s => exact Int.add_zero _

theorem timedDelta_acted (f : Firing) (a : Action) (actor : ActorId) (stat : String) :
    (WorldEvent.acted f a run).timedDelta actor stat =
      if a.lasts?.isSome then ((run.act f a).1.notices.map (Notice.delta actor stat)).sum else 0 := by
  simp [WorldEvent.timedDelta, WorldEvent.isTimed, WorldEvent.emissions, Function.comp_def]

theorem timedDelta_ended (k : ActorId) (effect : String) (change : Option StatChange) (now : Instant)
    (w : World) (actor : ActorId) (stat : String) :
    (WorldEvent.ended k effect change now w).timedDelta actor stat =
      ((expireEffect w k effect change).1.map (Notice.delta actor stat)).sum := by
  simp [WorldEvent.timedDelta, WorldEvent.isTimed, WorldEvent.emissions, Function.comp_def]

theorem held_carryOut (hl : run.engine.Linked) (hactions : run.engine.settings.actions = .builtin)
    (f : Firing) (a : Action) (hkept : ¬(WorldEvent.acted f a run).Forfeits actor stat) :
    (run.carryOut f a).engine.held actor stat =
      run.engine.held actor stat + (WorldEvent.acted f a run).timedDelta actor stat := by
  have hl' : (run.act f a).2.engine.Linked := by rwa [engine_act]
  rcases timed_cases hactions f a with ⟨hquiet, hleft⟩ | ⟨k, effect, change, after, hlasts, -, hnotices, hleft⟩
  · have hexpiries := expiries_followups hl' hleft f
    rw [engine_act] at hexpiries
    rw [carryOut, held_congr hexpiries, timedDelta_acted]
    rcases hquiet with hquiet | hquiet <;> rw [hquiet] <;> simp
  · have hdelta : (WorldEvent.acted f a run).timedDelta actor stat =
        (Job.expireEffect k effect change).amount actor stat := by
      rw [timedDelta_acted, hlasts, hnotices, if_pos (by rfl), sum_delta k effect]
    rw [carryOut, hleft, List.foldl_cons, List.foldl_nil, applyFollowup, now_act]
    cases hdue : run.now.after? after with
    | some due =>
      have hheld := held_scheduleExpiry hl' k effect change due actor stat
      rw [engine_act] at hheld
      dsimp only
      rw [engine_act, hheld, hdelta, Int.add_comm]
    | none =>
      -- Nothing is scheduled, so the change is forfeited unless it is none.
      have hzero : (WorldEvent.acted f a run).timedDelta actor stat = 0 := by
        by_contra hne
        exact hkept ⟨⟨after, hlasts, hdue⟩, hne⟩
      dsimp only
      rw [engine_act, hzero, Int.add_zero]

end Act

theorem timedDelta_ended_of_kept {k : ActorId} {effect : String} {change : Option StatChange}
    {now : Instant} (hk : w.actors.contains k = true)
    (hkept : ¬(WorldEvent.ended k effect change now w).Forfeits actor stat) :
    (WorldEvent.ended k effect change now w).timedDelta actor stat =
      -(Job.expireEffect k effect change).amount actor stat := by
  rw [timedDelta_ended]
  rcases expireEffect_cases w k effect change with ⟨hgone, -⟩ | ⟨_, _, -, hexpire⟩
  · rw [hgone] at hk
    cases hk
  · rw [hexpire]
    cases change with
    | none => rfl
    | some s =>
      change (if k = actor ∧ s.stat = stat then s.reversal else 0) + 0 =
        -(if k = actor ∧ s.stat = stat then s.amount else 0)
      split
      · rename_i hconcerns
        -- The opposite saturates at the greatest amount, which only the least one runs into.
        have hmin : ¬s.amount ≤ Width.minInt 64 := fun hmin =>
          hkept ⟨hconcerns.1, s, rfl, hconcerns.2, hmin⟩
        have hwidth : Width.maxInt 64 = -Width.minInt 64 - 1 := by decide
        unfold StatChange.reversal
        omega
      · rfl

theorem WorldStep.held (hl : e.Linked) (hw : e.ExpiriesHaveActors w) (h : WorldStep op e w ms e' w')
    (hkept : ∀ m ∈ ms, ¬m.Forfeits actor stat) :
    e'.held actor stat = e.held actor stat + (ms.map (WorldEvent.timedDelta actor stat)).sum := by
  cases h with
  | aside hop ha hp =>
    rw [held_congr (hl.expiries_perform ha hp hop)]
    exact (Int.add_zero _).symm
  | taken ht hr hdue hp =>
    rw [held_congr (expiries_taken_of_other hl hr hp _)]
    exact (Int.add_zero _).symm
  | @ended _ k r budget u now j effect change hop hr hdue hp =>
    -- The job goes with what it held, and its actor is there to be told the opposite.
    have hexpiry : r.payload.isExpiry = true := by
      rw [hp]
      rfl
    have hj := hw k r j effect change (get?_expiries_eq_some_iff.mpr ⟨hr, hexpiry⟩) hp
    have hdelta := timedDelta_ended_of_kept hj (hkept _ (List.mem_singleton_self _))
    have htaken := held_taken hl hr hexpiry now actor stat
    rw [hp] at htaken
    rw [List.map_singleton, List.sum_singleton, hdelta, htaken]
    omega
  | runSteps ht hs =>
    cases hs with
    | told => exact (Int.add_zero _).symm
    | entered hf =>
      rw [enter, held_congr (hl.expiries_recordFiring hf _)]
      exact (Int.add_zero _).symm
    | deferred =>
      rw [held_congr (hl.expiries_scheduleContinuation ..)]
      exact (Int.add_zero _).symm
    | acted hactions f a =>
      rw [held_carryOut hl hactions f a (hkept _ (List.mem_singleton_self _)), List.map_singleton,
        List.sum_singleton]

theorem ExpiriesHaveActors.carryOut {run : Run} (hactions : run.engine.settings.actions = .builtin)
    (hl : run.engine.Linked) (hw : run.engine.ExpiriesHaveActors run.world) (f : Firing) (a : Action) :
    (run.carryOut f a).engine.ExpiriesHaveActors run.world := by
  have hl' : (run.act f a).2.engine.Linked := by rwa [engine_act]
  rcases timed_cases hactions f a with ⟨-, hleft⟩ | ⟨k, effect, change, after, -, hk, -, hleft⟩
  · have hexpiries := expiries_followups hl' hleft f
    rw [engine_act] at hexpiries
    intro h r
    rw [Run.carryOut, hexpiries]
    exact hw h r
  · intro h r j name s hr hp
    rw [Run.carryOut, hleft, List.foldl_cons, List.foldl_nil, applyFollowup] at hr
    split at hr
    · rw [engine_act, expiries_scheduleExpiry] at hr
      refine SortedMap.of_get?_insert (p := fun _ r => r.payload = .expireEffect j name s →
        run.world.actors.contains j = true) hr (fun hp => ?_) (fun h r hr => hw h r j name s hr) hp
      cases hp
      exact hk
    · rw [engine_act] at hr
      exact hw h r j name s hr hp

theorem WorldStep.expiriesHaveActors (hl : e.Linked) (hw : e.ExpiriesHaveActors w)
    (h : WorldStep op e w ms e' w') : e'.ExpiriesHaveActors w' := by
  have hsame := h.tells.contains
  suffices hactors : e'.ExpiriesHaveActors w by
    intro k r j effect change hr hp
    rw [hsame]
    exact hactors k r j effect change hr hp
  cases h with
  | aside hop ha hp =>
    unfold ExpiriesHaveActors
    rwa [hl.expiries_perform ha hp hop]
  | taken ht hr hdue hp =>
    unfold ExpiriesHaveActors
    rwa [expiries_taken_of_other hl hr hp]
  | ended hop hr hdue hp =>
    intro k q j name s hq hpayload
    rw [expiries_taken hl hr, SortedMap.get?_erase] at hq
    split at hq
    · cases hq
    · exact hw k q j name s hq hpayload
  | runSteps ht hs =>
    cases hs with
    | told => exact hw
    | entered hf =>
      unfold ExpiriesHaveActors
      rwa [enter, hl.expiries_recordFiring hf]
    | deferred =>
      unfold ExpiriesHaveActors
      rwa [hl.expiries_scheduleContinuation]
    | acted hactions f a => exact hw.carryOut hactions hl f a

theorem expiries_eq_empty_of_idle (h : e.pendingJobs = 0) : e.expiries = .empty := by
  have hjobs : e.schedule.jobs.entries = [] := List.length_eq_zero_iff.mp h
  refine SortedMap.ext_get? fun k => ?_
  rw [get?_expiries, job?, Schedule.job?, SortedMap.get?, hjobs]
  rfl

/-- The ends of effects that are pending take back what the events of the log changed for a time. They can,
as each of them finds its actor in the world. -/
structure Balances (log : List WorldEvent) (e : Engine) (w : World) (actor : ActorId) (stat : String) :
    Prop where
  expiriesHaveActors : e.ExpiriesHaveActors w
  sum_eq : (∀ m ∈ log, ¬m.Forfeits actor stat) →
    (log.map (WorldEvent.timedDelta actor stat)).sum = e.held actor stat

theorem Balances.of_idle (h : e.pendingJobs = 0) (w : World) (actor : ActorId) (stat : String) :
    Balances [] e w actor stat := by
  have hempty := expiries_eq_empty_of_idle h
  constructor
  · intro k r j effect change hr
    rw [hempty] at hr
    cases hr
  · intro _
    rw [held, hempty]
    rfl

theorem Balances.called (h : Balances log e w actor stat) (hv : w.KeepsActors v) (op : Operation) :
    Balances (log ++ [.called op]) e v actor stat := by
  refine ⟨fun k r j effect change hr hp => hv j (h.expiriesHaveActors k r j effect change hr hp),
    fun hkept => ?_⟩
  rw [List.map_append, List.sum_append, h.sum_eq fun m hm => hkept m (List.mem_append_left _ hm)]
  exact Int.add_zero _

theorem Balances.worldStep (hl : e.Linked) (h : Balances log e w actor stat)
    (hp : WorldStep op e w ms e' w') : Balances (log ++ ms) e' w' actor stat := by
  refine ⟨hp.expiriesHaveActors hl h.expiriesHaveActors, fun hkept => ?_⟩
  obtain ⟨hlog, hms⟩ := List.forall_mem_append.mp hkept
  rw [List.map_append, List.sum_append, h.sum_eq hlog, hp.held hl h.expiriesHaveActors hms]

/-- Stats that effects change for a time are balanced. What timed actions and the ends of effects report of
a stat adds up to what the pending ends hold of it, and thus to nothing once none is pending, unless a
change was forfeited. -/
theorem balanced_of_course (hactions : settings.actions = .builtin) (h₀ : Reaches settings ops e₀)
    (hidle : e₀.pendingJobs = 0) (h : Course World.KeepsActors e₀ w₀ log told e w) (actor : ActorId)
    (stat : String) (hkept : ∀ m ∈ log, ¬m.Forfeits actor stat) :
    told.filter Notice.isNews = WorldEvent.news log ∧
      (log.map (WorldEvent.timedDelta actor stat)).sum = e.held actor stat ∧
      (e.expiries = .empty → (log.map (WorldEvent.timedDelta actor stat)).sum = 0) := by
  have hbalances : Balances log e w actor stat := by
    refine h.induct (motive := fun log e w => Balances log e w actor stat) hactions h₀
      (.of_idle hidle w₀ actor stat) ?_ ?_
    · rintro op log e w v hv hbalances
      exact hbalances.called hv op
    · rintro op log e w ms e' w' hl hp hbalances
      exact hbalances.worldStep hl hp
  have hsum := hbalances.sum_eq hkept
  refine ⟨h.news hactions h₀, hsum, fun hnone => ?_⟩
  rw [hsum, held, hnone]
  rfl

def alchemy (rules : List Rule) (later : List (World → Operation)) : List (World → Operation) :=
  (fun _ => .load (.ofRules (.room "lab") rules) 0) :: later

def drinks (rule : RuleId) (now : Instant) (w : World) : Operation :=
  .fireRule w ⟨.room "lab", rule⟩ { actor := some "alice" } now

def potion (amount duration : Int) : Action :=
  ⟨"apply_effect", .ofList [("effect", .string "vigor"), ("stat", .string "strength"),
    ("amount", .int amount), ("duration", .int duration)], 0⟩

def doses : List (World → Operation) :=
  alchemy [.plain "tonic" .enter [potion 5 10],
      .plain "purge" .enter [⟨"remove_effect", .ofList [("effect", .string "vigor")], 0⟩]]
    [drinks "tonic" 0, drinks "purge" 5000000000, drinks "tonic" 6000000000,
      fun _ => .unload (.room "lab"), fun w => .advance 5 w 12000000000]

def alone : World := { actors := .ofList [("alice", { id := "alice", name := "Alice" })] }

theorem balanced_doses : ∃ log told e w, Course Eq (ofSettings (.builtin 8)) alone log told e w ∧
    told.filter Notice.isNews = [.statDelta "alice" "strength" 5, .statDelta "alice" "strength" 5,
      .statDelta "alice" "strength" (-5)] ∧
    e.pendingJobs = 1 ∧ e.held "alice" "strength" = 5 ∧
    (log.map (WorldEvent.timedDelta "alice" "strength")).sum = e.held "alice" "strength" := by
  have hauthored : ∀ f ∈ doses, ∀ w, (f w).Authored ∧ ∀ u, (f w).world? = some u → u = w := by
    simp [doses, alchemy, drinks, Operation.Authored, Operation.world?, Content.Authored.ofRules]
  obtain ⟨log, told, e, w, hcourse, hp⟩ := exists_course (ofSettings (.builtin 8)) alone
    (fun s => decide (s.2.1.filter Notice.isNews = [.statDelta "alice" "strength" 5,
        .statDelta "alice" "strength" 5, .statDelta "alice" "strength" (-5)] ∧
      s.2.2.1.pendingJobs = 1 ∧ s.2.2.1.held "alice" "strength" = 5 ∧
      ∀ m ∈ s.1, ¬m.Forfeits "alice" "strength")) hauthored (by decide +kernel)
  obtain ⟨hnews, hpending, hheld, hkept⟩ := of_decide_eq_true hp
  obtain ⟨-, hsum, -⟩ := balanced_of_course rfl .start rfl (hcourse.mono World.keepsActors_of_eq)
    "alice" "strength" hkept
  exact ⟨log, told, e, w, hcourse, hnews, hpending, hheld, hsum⟩

def dose (amount duration : Int) : List (World → Operation) :=
  alchemy [.plain "tonic" .enter [potion amount duration]]
    [drinks "tonic" 0, fun w => .advance 5 w 20000000000]

/-- The least amount is not taken back whole, and a change whose end would come after all time not at all. -/
theorem unbalanced_dose :
    (∃ log told e w, Course Eq (ofSettings (.builtin 8)) alone log told e w ∧
      told = [.statDelta "alice" "strength" (-9223372036854775808),
        .statDelta "alice" "strength" 9223372036854775807] ∧
      (log.map (WorldEvent.timedDelta "alice" "strength")).sum = -1 ∧ e.held "alice" "strength" = 0 ∧
      e.pendingJobs = 0) ∧
    ∃ log told e w, Course Eq (ofSettings (.builtin 8)) alone log told e w ∧
      told = [.statDelta "alice" "strength" 5] ∧
      (log.map (WorldEvent.timedDelta "alice" "strength")).sum = 5 ∧ e.held "alice" "strength" = 0 ∧
      e.pendingJobs = 0 := by
  have hauthored (amount duration : Int) : ∀ f ∈ dose amount duration,
      ∀ w, (f w).Authored ∧ ∀ u, (f w).world? = some u → u = w := by
    simp [dose, alchemy, drinks, Operation.Authored, Operation.world?, Content.Authored.ofRules]
  have hdose (amount duration total : Int) (news : List Notice)
      (h : ((dose amount duration).foldlM goOn? ([], [], ofSettings (.builtin 8), alone)).any (fun s =>
        decide (s.2.1 = news ∧ (s.1.map (WorldEvent.timedDelta "alice" "strength")).sum = total ∧
          s.2.2.1.held "alice" "strength" = 0 ∧ s.2.2.1.pendingJobs = 0)) = true) :
      ∃ log told e w, Course Eq (ofSettings (.builtin 8)) alone log told e w ∧
        told = news ∧ (log.map (WorldEvent.timedDelta "alice" "strength")).sum = total ∧
        e.held "alice" "strength" = 0 ∧ e.pendingJobs = 0 := by
    obtain ⟨log, told, e, w, hcourse, hp⟩ := exists_course _ _ _ (hauthored amount duration) h
    exact ⟨log, told, e, w, hcourse, of_decide_eq_true hp⟩
  exact ⟨hdose (-9223372036854775808) 10 _ _ (by decide +kernel),
    hdose 5 10000000000000 _ _ (by decide +kernel)⟩

end Engine

end WorldTriggers
