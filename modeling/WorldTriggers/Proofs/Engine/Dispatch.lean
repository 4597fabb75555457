import WorldTriggers.Proofs.Action
import WorldTriggers.Proofs.Engine.Control

/-!
What a run does, as a relation. `Run.Leads` follows the program case by case, except that an action may
change the world and report notices at will; `Engine.Step` keeps of that the changes of the engine, and
each of them keeps it linked and live.
-/

namespace WorldTriggers

namespace Engine

variable {e e' : Engine} {now : Instant}

/-- A change that a run makes to its engine. -/
inductive Step (now : Instant) : Engine → Engine → Prop where
  | record {e : Engine} {f : Firing} (hf : e.Installed f) : Step now e (e.recordFiring f now)
  | switch {e e' : Engine} {ref : RuleRef} {enabled : Bool} {notice : Notice}
      (h : e.setEnabled ref enabled now = .ok (notice, e')) : Step now e e'
  | expire {e : Engine} {after : Span} {due : Instant} (actor : ActorId) (effect : String)
      (stat : Option StatChange) (hd : now.after? after = some due) :
      Step now e (e.scheduleExpiry actor effect stat due)
  | putOff {e : Engine} {f : Firing} {i : Nat} {a : Action} {wait : Span} {due : Instant}
      (hf : e.Installed f) (ha : f.rule.actions[i]? = some a) (hw : a.wait? = some wait)
      (hd : now.after? wait = some due) : Step now e (e.scheduleContinuation ⟨f, i⟩ due)

def Steps (now : Instant) : Engine → Engine → Prop := Relation.ReflTransGen (Step now)

section RecordFiring

theorem Linked.recordFiring {f : Firing} (hl : e.Linked) (hf : e.Installed f) :
    (e.recordFiring f now).Linked := by
  have hr := isSome_of_target? hf
  unfold Engine.recordFiring
  dsimp only
  split
  · exact (hl.update hr rfl).disarmTimer hr
  · exact hl.update hr rfl

theorem Live.recordFiring {f : Firing} (hl : e.Linked) (hv : e.Live) (hf : e.Installed f) :
    (e.recordFiring f now).Live := by
  unfold Engine.recordFiring
  dsimp only
  split
  · exact Live.disarmTimer_update hl hv rfl
  · rename_i hn
    refine hv.mono fun _ q k _ hj hp => ⟨⟨q, hj, hp⟩, ?_⟩
    rintro ⟨rule, hr, ht, hen, hex⟩
    by_cases hk : k = f.ref
    · subst k
      obtain rfl : f.rule = rule := Option.some.inj ((target?_eq_some_iff.mp hf).2.symm.trans hr)
      refine ⟨f.rule, hr, ht, ?_, ?_⟩
      · rw [RuleStates.stateOf_update_self]
        exact hen
      · simpa [ht] using hn
    · exact WantsTimer.congr ⟨rule, hr, ht, hen, hex⟩ rfl (RuleStates.stateOf_update_of_ne _ _ hk)

end RecordFiring

section Kept

theorem job?_of_recordFiring {f : Firing} {h : Handle} {q : Registration Job}
    (hq : (e.recordFiring f now).job? h = some q) : e.job? h = some q := by
  unfold recordFiring at hq
  dsimp only at hq
  split at hq
  · exact (job?_of_disarmTimer hq).2
  · exact hq

@[simp] theorem catalog_recordFiring (e : Engine) (f : Firing) (now : Instant) :
    (e.recordFiring f now).catalog = e.catalog := by
  unfold recordFiring
  dsimp only
  split <;> rfl

@[simp] theorem settings_armTimer (e : Engine) (scope : Scope) (epoch : Nat) (r : Rule)
    (now : Instant) : (e.armTimer scope epoch r now).settings = e.settings := by
  cases hplan : r.timerPlan? with
  | none => rw [armTimer_of_no_plan hplan]
  | some plan =>
    rcases armTimer_eq hplan e scope epoch now with ⟨-, he⟩ | ⟨_, _, _, he⟩ <;> rw [he] <;> rfl

@[simp] theorem waiting_armTimer (e : Engine) (scope : Scope) (epoch : Nat) (r : Rule)
    (now : Instant) : (e.armTimer scope epoch r now).waiting = e.waiting := by
  cases hplan : r.timerPlan? with
  | none => rw [armTimer_of_no_plan hplan]
  | some plan =>
    rcases armTimer_eq hplan e scope epoch now with ⟨-, he⟩ | ⟨_, _, _, he⟩ <;> rw [he] <;> rfl

theorem catalog_of_setEnabled {ref : RuleRef} {enabled : Bool} {notice : Notice}
    (h : e.setEnabled ref enabled now = .ok (notice, e')) : e'.catalog = e.catalog := by
  obtain ⟨epoch, r, -, rfl⟩ := setEnabled_eq_ok h
  unfold switchedOn switchedOff
  cases enabled <;> by_cases ht : r.event = .timer <;> simp only [ht] <;> simp [cancelDeferred, flag]

theorem settings_of_setEnabled {ref : RuleRef} {enabled : Bool} {notice : Notice}
    (h : e.setEnabled ref enabled now = .ok (notice, e')) : e'.settings = e.settings := by
  obtain ⟨epoch, r, -, rfl⟩ := setEnabled_eq_ok h
  unfold switchedOn switchedOff
  cases enabled <;> by_cases ht : r.event = .timer <;>
    simp only [ht] <;> simp [cancelDeferred, flag, disarmTimer]

theorem waiting_of_setEnabled {ref : RuleRef} {enabled : Bool} {notice : Notice}
    (h : e.setEnabled ref enabled now = .ok (notice, e')) : e'.waiting = e.waiting := by
  obtain ⟨epoch, r, -, rfl⟩ := setEnabled_eq_ok h
  unfold switchedOn switchedOff
  cases enabled <;> by_cases ht : r.event = .timer <;>
    simp only [ht] <;> simp [cancelDeferred, flag, disarmTimer]

theorem Step.catalog (h : Step now e e') : e'.catalog = e.catalog := by
  cases h with
  | record hf => exact catalog_recordFiring ..
  | switch h => exact catalog_of_setEnabled h
  | expire | putOff => rfl

theorem Step.settings (h : Step now e e') : e'.settings = e.settings := by
  cases h with
  | record hf =>
    unfold recordFiring
    dsimp only
    split <;> rfl
  | switch h => exact settings_of_setEnabled h
  | expire | putOff => rfl

theorem Step.waiting (h : Step now e e') : e'.waiting = e.waiting := by
  cases h with
  | record hf =>
    unfold recordFiring
    dsimp only
    split <;> rfl
  | switch h => exact waiting_of_setEnabled h
  | expire | putOff => rfl

theorem Steps.catalog (h : Steps now e e') : e'.catalog = e.catalog := by
  induction h with
  | refl => rfl
  | tail _ hs ih => exact hs.catalog.trans ih

theorem Steps.settings (h : Steps now e e') : e'.settings = e.settings := by
  induction h with
  | refl => rfl
  | tail _ hs ih => exact hs.settings.trans ih

theorem Steps.waiting (h : Steps now e e') : e'.waiting = e.waiting := by
  induction h with
  | refl => rfl
  | tail _ hs ih => exact hs.waiting.trans ih

theorem Installed.congr {f : Firing} (hf : e.Installed f) (h : e'.catalog = e.catalog) :
    e'.Installed f :=
  (target?_congr (by rw [h])).trans hf

end Kept

section Knows

variable {actions : ActionRegistry} {known : RuleRef → Rule → Prop}

structure Knows (actions : ActionRegistry) (known : RuleRef → Rule → Prop) (e : Engine) : Prop where
  actions : e.settings.actions = actions
  rules : ∀ ref rule, e.catalog.rule? ref = some rule → known ref rule

theorem Knows.congr (h : e.Knows actions known) (hsettings : e'.settings = e.settings)
    (hcatalog : e'.catalog = e.catalog) : e'.Knows actions known :=
  ⟨by rw [hsettings, h.actions], by rw [hcatalog]; exact h.rules⟩

theorem Knows.step (h : e.Knows actions known) (hs : Step now e e') : e'.Knows actions known :=
  h.congr hs.settings hs.catalog

theorem Knows.steps (h : e.Knows actions known) (hs : Steps now e e') : e'.Knows actions known :=
  h.congr hs.settings hs.catalog

end Knows

theorem Linked.step (hl : e.Linked) (h : Step now e e') : e'.Linked := by
  cases h with
  | record hf => exact hl.recordFiring hf
  | switch h => exact hl.setEnabled h
  | expire actor effect stat hd =>
    exact hl.scheduleExpiry actor effect stat (Instant.after?_eq_some_iff.mp hd).2.1
  | putOff hf ha hw hd =>
    exact hl.scheduleContinuation hf (List.getElem?_eq_some_iff.mp ha).1
      (Instant.after?_eq_some_iff.mp hd).2.1

theorem Live.step (hl : e.Linked) (hv : e.Live) (h : Step now e e') : e'.Live := by
  cases h with
  | record hf => exact hv.recordFiring hl hf
  | switch h => exact hv.setEnabled hl h
  | expire actor effect stat hd => exact hv.scheduleExpiry actor effect stat _
  | putOff hf ha hw hd => exact hv.scheduleContinuation _ _

theorem Linked.steps (hl : e.Linked) (h : Steps now e e') : e'.Linked := by
  induction h with
  | refl => exact hl
  | tail _ hs ih => exact ih.step hs

theorem Live.steps (hl : e.Linked) (hv : e.Live) (h : Steps now e e') : e'.Live := by
  induction h with
  | refl => exact hv
  | tail hs h ih => exact ih.step (hl.steps hs) h

end Engine

def Action.Leaves (actions : ActionRegistry) (f : Firing) (a : Action) (left : List Followup) : Prop :=
  left = [] ∨ ∃ act w outcome w', actions.get? a.kind = some act ∧
    act a.params ⟨w, f.context, f.scope⟩ = .ok (outcome, w') ∧ outcome.followups = left

theorem Action.Leaves.mayLeave {actions : ActionRegistry} {f : Firing} {a : Action}
    {left : List Followup} (h : a.Leaves actions f left) {x : Followup} (hx : x ∈ left) :
    a.MayLeave actions f.scope x := by
  rcases h with rfl | ⟨act, w, outcome, w', hact, hok, rfl⟩
  · cases hx
  · exact ⟨act, w, f.context, outcome, w', hact, hok, hx⟩

/-- What a run is at. -/
inductive Stage where
  | attempt (f : Firing)
  | actions (f : Firing) (resumed : Bool) (index : Nat)
  | followups (f : Firing) (rest : List Followup)

def Stage.firing : Stage → Firing
  | attempt f => f
  | actions f _ _ => f
  | followups f _ => f

namespace Run

def enter (run : Run) (f : Firing) : Run :=
  { run with
    engine := run.engine.recordFiring f run.now
    visited := f.ref :: run.visited
    fired := run.fired ++ [f.ref] }

inductive Leads : Stage → Run → Run → Prop where
  | refused (f : Firing) (run : Run) : Leads (.attempt f) run run
  | fired {f : Firing} {run run' : Run} (hm : f.mayFire run)
      (h : Leads (.actions f false 0) (run.enter f) run') : Leads (.attempt f) run run'
  | ended (f : Firing) (resumed : Bool) (i : Nat) (run : Run) : Leads (.actions f resumed i) run run
  | deferred {f : Firing} {i : Nat} {a : Action} {wait : Span} {due : Instant} {run : Run}
      (ha : f.rule.actions[i]? = some a) (hw : a.wait? = some wait)
      (hd : run.now.after? wait = some due) :
      Leads (.actions f false i) run
        { run with engine := run.engine.scheduleContinuation ⟨f, i⟩ due }
  | acted {f : Firing} {resumed : Bool} {i : Nat} {a : Action} {left : List Followup} {world : World}
      {notices : List Notice} {run mid run' : Run} (ha : f.rule.actions[i]? = some a)
      (hw : resumed = true ∨ a.wait? = none)
      (hleft : a.Leaves run.engine.settings.actions f left)
      (h : Leads (.followups f left) ({ run with world }.note notices) mid)
      (hrest : Leads (.actions f false (i + 1)) mid run') : Leads (.actions f resumed i) run run'
  | settled (f : Firing) (run : Run) : Leads (.followups f []) run run
  | passed {f : Firing} {x : Followup} {rest : List Followup} {notices : List Notice} {run run' : Run}
      (h : Leads (.followups f rest) (run.note notices) run') : Leads (.followups f (x :: rest)) run run'
  | switched {f : Firing} {target : RuleRef} {enabled : Bool} {rest : List Followup} {notice : Notice}
      {engine : Engine} {run run' : Run}
      (hs : run.engine.setEnabled target enabled run.now = .ok (notice, engine))
      (h : Leads (.followups f rest) ({ run with engine }.note [notice]) run') :
      Leads (.followups f (.setEnabled target enabled :: rest)) run run'
  | cascaded {f : Firing} {target : RuleRef} {epoch : Nat} {rule : Rule} {rest : List Followup}
      {run mid run' : Run} (ht : run.engine.target? target = some (epoch, rule))
      (h : Leads (.attempt ⟨target.scope, epoch, rule, f.context⟩) run mid)
      (hrest : Leads (.followups f rest) mid run') :
      Leads (.followups f (.fireRule target :: rest)) run run'
  | expires {f : Firing} {actor : ActorId} {effect : String} {stat : Option StatChange}
      {after : Span} {due : Instant} {rest : List Followup} {run run' : Run}
      (hd : run.now.after? after = some due)
      (h : Leads (.followups f rest)
        { run with engine := run.engine.scheduleExpiry actor effect stat due } run') :
      Leads (.followups f (.expireEffect actor effect stat after :: rest)) run run'

section Sound

variable {cascade : Option Cascade} {f : Firing}

def Attempts (cascade : Option Cascade) : Prop :=
  ∀ fire, cascade = some fire → ∀ f run, Leads (.attempt f) run (fire f run)

theorem leads_followups (hc : Attempts cascade) (f : Firing) (left : List Followup) (run : Run) :
    Leads (.followups f left) run (left.foldl (applyFollowup cascade f) run) := by
  induction left generalizing run with
  | nil => exact .settled f run
  | cons x rest ih =>
    -- A followup that fails leaves at most a notice.
    have hpass (notices : List Notice) : Leads (.followups f (x :: rest)) run
        (rest.foldl (applyFollowup cascade f) (run.note notices)) := .passed (ih _)
    have hidle : Leads (.followups f (x :: rest)) run (rest.foldl (applyFollowup cascade f) run) := by
      simpa [note] using hpass []
    rw [List.foldl_cons]
    generalize hmid : applyFollowup cascade f run x = mid
    unfold applyFollowup at hmid
    cases x with
    | setEnabled target enabled =>
      dsimp only at hmid
      split at hmid
      · subst hmid
        exact .switched ‹_› (ih _)
      · subst hmid
        exact hpass _
    | fireRule target =>
      dsimp only at hmid
      split at hmid
      · subst hmid
        exact hidle
      · rename_i fire
        split at hmid
        · subst hmid
          exact .cascaded ‹_› (hc fire rfl _ _) (ih _)
        · subst hmid
          exact hpass _
    | expireEffect actor effect stat after =>
      dsimp only at hmid
      split at hmid
      · subst hmid
        exact .expires ‹_› (ih _)
      · subst hmid
        exact hidle

theorem leads_runActions (hc : Attempts cascade) (resumed : Bool) (i : Nat) (actions : List Action)
    (run : Run) (hdrop : f.rule.actions.drop i = actions) :
    Leads (.actions f resumed i) run (runActions cascade f resumed i actions run) := by
  induction actions generalizing resumed i run with
  | nil => exact .ended f resumed i run
  | cons a rest ih =>
    have ha : f.rule.actions[i]? = some a := by
      rw [← List.head?_drop, hdrop]
      rfl
    have hrest : f.rule.actions.drop (i + 1) = rest := by
      rw [← List.tail_drop, hdrop]
      rfl
    unfold runActions
    split
    · rename_i wait hw
      have hres : resumed = false ∧ a.wait? = some wait := by
        cases resumed <;> simp_all
      rw [hres.1]
      unfold defer
      split
      · exact .deferred ha hres.2 ‹_›
      · exact .ended f false i run
    · rename_i hw
      have hres : resumed = true ∨ a.wait? = none := by
        cases resumed <;> simp_all
      -- An action that is unknown or fails leaves nothing to be done.
      have hskip (notices : List Notice) : Leads (.actions f resumed i) run
          (runActions cascade f false (i + 1) rest (run.note notices)) := by
        have hsettled : Leads (.followups f []) ({ run with world := run.world }.note notices)
            (run.note notices) := .settled f _
        exact .acted ha hres (.inl rfl) hsettled (ih _ _ _ hrest)
      have hidle : run.note [] = run := by simp [note]
      split
      · have := hskip []
        rwa [hidle] at this
      · rename_i act hact
        split
        · exact hskip _
        · rename_i outcome world hok
          dsimp only
          have hleft : a.Leaves run.engine.settings.actions f outcome.followups :=
            .inr ⟨act, run.world, outcome, world, hact, hok, rfl⟩
          have hdone := leads_followups hc f outcome.followups
            ({ run with world }.note outcome.notices)
          split
          · exact .acted ha hres hleft hdone (.ended ..)
          · exact .acted ha hres hleft hdone (ih _ _ _ hrest)

theorem leads_attemptWith (hc : Attempts cascade) (f : Firing) (run : Run) :
    Leads (.attempt f) run (attemptWith cascade f run) := by
  unfold attemptWith
  split
  · exact .fired ‹_› (leads_runActions hc false 0 _ _ rfl)
  · exact .refused f run

theorem attempts_none : Attempts none := by
  intro fire h
  cases h

theorem attempts_some {fire : Cascade} (h : ∀ f run, Leads (.attempt f) run (fire f run)) :
    Attempts (some fire) := by
  intro _ hf
  cases hf
  exact h

theorem leads_attempt (depth : Nat) (f : Firing) (run : Run) :
    Leads (.attempt f) run (attempt depth f run) := by
  induction depth generalizing f run with
  | zero => exact leads_attemptWith attempts_none f run
  | succ depth ih => exact leads_attemptWith (attempts_some ih) f run

theorem exists_attempt_eq (depth : Nat) (f : Firing) (run : Run) :
    ∃ cascade, attempt depth f run = attemptWith cascade f run := by
  cases depth with
  | zero => exact ⟨none, rfl⟩
  | succ depth => exact ⟨some (attempt depth), rfl⟩

theorem leads_offer (run : Run) (f : Firing) : Leads (.attempt f) run (run.offer f) :=
  leads_attempt ..

theorem leads_resume (run : Run) (c : Continuation) :
    Leads (.actions c.firing true c.next) { run with visited := c.firing.ref :: run.visited }
      (run.resume c) := by
  refine leads_runActions ?_ true c.next _ _ rfl
  split
  · exact attempts_none
  · exact attempts_some (leads_attempt _)

end Sound

theorem Leads.steps {stage : Stage} {run run' : Run} (h : Leads stage run run')
    (hf : run.engine.Installed stage.firing) :
    run'.now = run.now ∧ Engine.Steps run.now run.engine run'.engine := by
  induction h with
  | refused | ended | settled => exact ⟨rfl, .refl⟩
  | @fired f run run' hm h ih =>
    obtain ⟨hnow, hs⟩ := ih (hf.congr (Engine.catalog_recordFiring ..))
    exact ⟨hnow, .head (.record hf) hs⟩
  | deferred ha hw hd => exact ⟨rfl, .single (.putOff hf ha hw hd)⟩
  | acted ha hw hleft h hrest ih ihrest =>
    obtain ⟨hnow, hs⟩ := ih hf
    obtain ⟨hnow', hs'⟩ := ihrest (hf.congr hs.catalog)
    rw [hnow] at hs'
    exact ⟨hnow'.trans hnow, hs.trans hs'⟩
  | passed h ih => exact ih hf
  | switched hs h ih =>
    obtain ⟨hnow, hsteps⟩ := ih (hf.congr (Engine.catalog_of_setEnabled hs))
    exact ⟨hnow, .head (.switch hs) hsteps⟩
  | @cascaded f target epoch rule rest run mid run' ht h hrest ih ihrest =>
    have hinstalled := Engine.installed_of_target? ht f.context
    obtain ⟨hnow, hs⟩ := ih hinstalled
    obtain ⟨hnow', hs'⟩ := ihrest (hf.congr hs.catalog)
    rw [hnow] at hs'
    exact ⟨hnow'.trans hnow, hs.trans hs'⟩
  | expires hd h ih =>
    obtain ⟨hnow, hs⟩ := ih hf
    exact ⟨hnow, .head (.expire _ _ _ hd) hs⟩

def Offers : Run → Run → Prop :=
  Relation.ReflTransGen fun run run' => ∃ f, run.engine.Installed f ∧ Leads (.attempt f) run run'

theorem Offers.steps {run run' : Run} (h : Offers run run') :
    run'.now = run.now ∧ Engine.Steps run.now run.engine run'.engine := by
  induction h with
  | refl => exact ⟨rfl, .refl⟩
  | tail _ hlast ih =>
    obtain ⟨f, hf, hleads⟩ := hlast
    obtain ⟨hnow, hs⟩ := hleads.steps hf
    rw [ih.1] at hs
    exact ⟨hnow.trans ih.1, ih.2.trans hs⟩

theorem offers_fireIn {run : Run} (hsound : run.engine.catalog.Sound) (scope : Scope)
    (event : EventKind) (context : Context) : Offers run (run.fireIn scope event context) := by
  unfold fireIn
  cases hi : run.engine.catalog.get? scope with
  | none => exact .refl
  | some i =>
    have hfold (ls : List LoadedRule) (hls : ∀ l ∈ ls, l ∈ i.rules) (mid : Run)
        (hmid : Offers run mid) :
        Offers run (ls.foldl (fun run l => run.offer ⟨scope, i.epoch, l.rule, context⟩) mid) := by
      induction ls generalizing mid with
      | nil => exact hmid
      | cons l rest ih =>
        refine ih (fun l hl => hls l (List.mem_cons_of_mem _ hl)) _
          (hmid.tail ⟨_, ?_, leads_offer _ _⟩)
        have hrule := hsound.rule?_of_mem hi (hls l List.mem_cons_self)
        rw [Engine.Installed, Engine.target?_eq_some_iff, hmid.steps.2.catalog]
        exact ⟨by simp [Firing.ref, Catalog.epoch?, hi], hrule⟩
    exact hfold _ (fun l hl => (List.mem_filter.mp (List.mem_filter.mp hl).1).1) run .refl

end Run

end WorldTriggers
