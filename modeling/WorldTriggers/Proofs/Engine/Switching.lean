import WorldTriggers.Proofs.Engine.Flags

namespace WorldTriggers

def Rule.prompt (r : Rule) : List Action := r.actions.takeWhile (·.wait?.isNone)

/-- Whether an action of a rule in some scope may switch a rule off, directly or through prompt actions
of known rules that it fires. -/
inductive SwitchesOff (actions : ActionRegistry) (known : RuleRef → Rule → Prop) (ref : RuleRef) :
    Scope → Action → Prop where
  | direct {scope : Scope} {a : Action} (h : a.MayLeave actions scope (.setEnabled ref false)) :
      SwitchesOff actions known ref scope a
  | fired {scope : Scope} {a b : Action} {target : RuleRef} {rule : Rule}
      (h : a.MayLeave actions scope (.fireRule target)) (hk : known target rule)
      (hb : b ∈ rule.prompt) (hs : SwitchesOff actions known ref target.scope b) :
      SwitchesOff actions known ref scope a

def Continuation.Excused (actions : ActionRegistry) (known : RuleRef → Rule → Prop)
    (c : Continuation) : Prop :=
  ∃ j a, j < c.next ∧ c.firing.rule.actions[j]? = some a ∧
    SwitchesOff actions known c.firing.ref c.firing.scope a

variable {actions : ActionRegistry} {known : RuleRef → Rule → Prop} {ref : RuleRef}

theorem SwitchesOff.mono {known' : RuleRef → Rule → Prop} {scope : Scope} {a : Action}
    (h : SwitchesOff actions known ref scope a) (hk : ∀ ref rule, known ref rule → known' ref rule) :
    SwitchesOff actions known' ref scope a := by
  induction h with
  | direct h => exact .direct h
  | fired h hknown hb _ ih => exact .fired h (hk _ _ hknown) hb ih

theorem mem_prompt {r : Rule} {j : Nat} {b : Action} (hb : r.actions[j]? = some b)
    (h : ∀ k a, k ≤ j → r.actions[k]? = some a → a.wait? = none) : b ∈ r.prompt := by
  unfold Rule.prompt
  generalize r.actions = actions at hb h
  induction actions generalizing j with
  | nil => simp at hb
  | cons a rest ih =>
    have ha : a.wait?.isNone = true := by simpa using h 0 a (Nat.zero_le j) rfl
    rw [List.takeWhile_cons, ha]
    cases j with
    | zero =>
      obtain rfl := Option.some.inj hb
      exact List.mem_cons_self
    | succ j =>
      exact List.mem_cons_of_mem _ (ih hb fun k a hk => h (k + 1) a (Nat.succ_le_succ hk))

def Stage.MaySwitchOff (actions : ActionRegistry) (known : RuleRef → Rule → Prop) (ref : RuleRef) :
    Stage → Prop
  | .attempt f => ∃ b ∈ f.rule.prompt, SwitchesOff actions known ref f.scope b
  | .actions f resumed i => ∃ j b, i ≤ j ∧ f.rule.actions[j]? = some b ∧
      SwitchesOff actions known ref f.scope b ∧
      ∀ k a, i ≤ k → k ≤ j → f.rule.actions[k]? = some a →
        k = i ∧ resumed = true ∨ a.wait? = none
  | .followups _ left => .setEnabled ref false ∈ left ∨ ∃ target rule b, .fireRule target ∈ left ∧
      known target rule ∧ b ∈ rule.prompt ∧ SwitchesOff actions known ref target.scope b

theorem Stage.MaySwitchOff.cons {f : Firing} {x : Followup} {rest : List Followup}
    (h : (Stage.followups f rest).MaySwitchOff actions known ref) :
    (Stage.followups f (x :: rest)).MaySwitchOff actions known ref := by
  rcases h with hx | ⟨target, rule, b, hx, hrest⟩
  · exact .inl (List.mem_cons_of_mem _ hx)
  · exact .inr ⟨target, rule, b, List.mem_cons_of_mem _ hx, hrest⟩

theorem Action.Leaves.switchesOff {f : Firing} {a : Action} {left : List Followup}
    (h : a.Leaves actions f left) (hs : (Stage.followups f left).MaySwitchOff actions known ref) :
    SwitchesOff actions known ref f.scope a := by
  rcases hs with hx | ⟨target, rule, b, hx, hk, hb, hs⟩
  · exact .direct (h.mayLeave hx)
  · exact .fired (h.mayLeave hx) hk hb hs

namespace Engine

variable {e e' : Engine} {now : Instant}

def Settled (actions : ActionRegistry) (known : RuleRef → Rule → Prop) (e : Engine) : Prop :=
  ∀ h r c, e.job? h = some r → r.payload = .continuation c →
    e.IsOn c.firing.ref ∨ c.Excused actions known

theorem Settled.frame (hs : e.Settled actions known)
    (h : ∀ k r c, e'.job? k = some r → r.payload = .continuation c →
      (∃ q, e.job? k = some q ∧ q.payload = .continuation c) ∧
        (e.IsOn c.firing.ref → e'.IsOn c.firing.ref)) : e'.Settled actions known := by
  intro k r c hr hp
  obtain ⟨⟨q, hq, hpq⟩, hon⟩ := h k r c hr hp
  exact (hs k q c hq hpq).imp_left hon

theorem KeepsFlags.settled (h : KeepsFlags e e') (hs : e.Settled actions known) : e'.Settled actions known :=
  hs.frame fun k r c hr hp => ⟨h.deferred k r c hr hp, h.isOn⟩

section SetEnabled

variable {k : RuleRef} {enabled : Bool} {notice : Notice}

theorem not_deferred_of_setEnabled {h : Handle} {r : Registration Job} {c : Continuation}
    (hl : e.Linked) (hoff : e.setEnabled k false now = .ok (notice, e')) (hr : e'.job? h = some r)
    (hp : r.payload = .continuation c) : c.firing.ref ≠ k := by
  have hfits := (hl.setEnabled hoff).fits h r hr
  simp only [Fits, hp] at hfits
  have hd := hfits.2.2.2
  obtain ⟨epoch, rule, -, rfl⟩ := setEnabled_eq_ok hoff
  rw [if_neg (by simp), switchedOff, get?_cancelDeferred, Option.filter_eq_some_iff] at hd
  simpa using hd.2

theorem Settled.setEnabled (hl : e.Linked) (hs : e.Settled actions known)
    (h : e.setEnabled k enabled now = .ok (notice, e')) : e'.Settled actions known := by
  refine hs.frame fun j r c hr hp => ?_
  obtain ⟨q, hq, hpq⟩ := (keepsFlags_setEnabled h).deferred j r c hr hp
  refine ⟨⟨q, hq, hpq⟩, fun hon => hon.setEnabled h fun hk => ?_⟩
  by_contra hoff
  rw [Bool.not_eq_true] at hoff
  subst hoff
  exact not_deferred_of_setEnabled hl h hr hp hk

end SetEnabled

end Engine

namespace Run

open Engine

theorem Leads.isOn {stage : Stage} {run run' : Run} (h : Leads stage run run')
    (hf : run.engine.Installed stage.firing) (hknows : run.engine.Knows actions known)
    (hon : run.engine.IsOn ref) : run'.engine.IsOn ref ∨ stage.MaySwitchOff actions known ref := by
  induction h with
  | refused | ended | settled => exact .inl hon
  | @fired f run run' hm h ih =>
    have hrecord := keepsFlags_recordFiring run.engine f run.now
    refine (ih (hf.congr hrecord.catalog) (hknows.step (.record hf)) (hrecord.isOn hon)).imp_right ?_
    rintro ⟨j, b, -, hb, hs, hprompt⟩
    refine ⟨b, mem_prompt hb fun k a hk ha => ?_, hs⟩
    simpa using hprompt k a (Nat.zero_le k) hk ha
  | deferred ha hw hd => exact .inl (hon.congr rfl rfl)
  | @acted f resumed i a left world notices run mid run' ha hw hleft h hrest ih ihrest =>
    have hfirst {k : Nat} {c : Action} (hk : k = i) (hc : f.rule.actions[k]? = some c) :
        k = i ∧ resumed = true ∨ c.wait? = none := by
      subst hk
      obtain rfl := Option.some.inj (ha.symm.trans hc)
      exact hw.imp_left fun hres => ⟨rfl, hres⟩
    have hsteps := (h.steps hf).2
    rcases ih hf hknows hon with hmid | hs
    · refine (ihrest (hf.congr hsteps.catalog) (hknows.steps hsteps) hmid).imp_right ?_
      rintro ⟨j, b, hj, hb, hs, hprompt⟩
      refine ⟨j, b, Nat.le_of_succ_le hj, hb, hs, fun k c hik hkj hc => ?_⟩
      rcases Nat.eq_or_lt_of_le hik with hk | hlt
      · exact hfirst hk.symm hc
      · exact .inr (by simpa using hprompt k c hlt hkj hc)
    · exact .inr ⟨i, a, le_refl i, ha, (hknows.actions ▸ hleft).switchesOff hs,
        fun k c hik hki hc => hfirst (Nat.le_antisymm hki hik) hc⟩
  | passed h ih => exact (ih hf hknows hon).imp_right .cons
  | @switched f target enabled rest notice engine run run' hset h ih =>
    have hstep : Step run.now run.engine engine := .switch hset
    by_cases hk : ref = target → enabled = true
    · exact (ih (hf.congr hstep.catalog) (hknows.step hstep) (hon.setEnabled hset hk)).imp_right .cons
    · push Not at hk
      obtain ⟨rfl, hoff⟩ := hk
      rw [Bool.eq_false_of_not_eq_true hoff]
      exact .inr (.inl List.mem_cons_self)
  | @cascaded f target epoch rule rest run mid run' ht h hrest ih ihrest =>
    have hinstalled := installed_of_target? ht f.context
    have hsteps := (h.steps hinstalled).2
    rcases ih hinstalled hknows hon with hmid | ⟨b, hb, hs⟩
    · exact (ihrest (hf.congr hsteps.catalog) (hknows.steps hsteps) hmid).imp_right .cons
    · exact .inr (.inr ⟨target, rule, b, List.mem_cons_self,
        hknows.rules _ _ (target?_eq_some_iff.mp ht).2, hb, hs⟩)
  | expires hd h ih =>
    exact (ih hf (hknows.step (.expire _ _ _ hd)) (hon.congr rfl rfl)).imp_right .cons

def Ready (actions : ActionRegistry) (known : RuleRef → Rule → Prop) (run : Run) : Stage → Prop
  | .actions f _ i => run.engine.IsOn f.ref ∨ Continuation.Excused actions known ⟨f, i⟩
  | _ => True

theorem Leads.settled_engine {stage : Stage} {run run' : Run} (h : Leads stage run run')
    (hf : run.engine.Installed stage.firing) (hknows : run.engine.Knows actions known)
    (hl : run.engine.Linked) (hready : Ready actions known run stage)
    (hs : run.engine.Settled actions known) : run'.engine.Settled actions known := by
  induction h with
  | refused | ended | settled => exact hs
  | @fired f run run' hm h ih =>
    have hrecord := keepsFlags_recordFiring run.engine f run.now
    exact ih (hf.congr hrecord.catalog) (hknows.step (.record hf)) (hl.recordFiring hf)
      (.inl (hrecord.isOn (isOn_of_mayFire hf hm))) (hrecord.settled hs)
  | @deferred f i a wait due run ha hw hd =>
    intro k r c hr hp
    rw [job?_scheduleContinuation] at hr
    split at hr
    · cases hr
      cases hp
      exact hready.imp_left fun hon => hon.congr rfl rfl
    · exact (hs k r c hr hp).imp_left fun hon => hon.congr rfl rfl
  | @acted f resumed i a left world notices run mid run' ha hw hleft h hrest ih ihrest =>
    have hsteps := (h.steps hf).2
    refine ihrest (hf.congr hsteps.catalog) (hknows.steps hsteps) (hl.steps hsteps) ?_
      (ih hf hknows hl trivial hs)
    -- Either the rule is still on after this action, or this action excuses the later ones.
    rcases hready with hon | ⟨j, b, hj, hb, hoff⟩
    · refine (h.isOn hf hknows hon).imp_right fun hoff => ?_
      exact ⟨i, a, Nat.lt_succ_self i, ha, (hknows.actions ▸ hleft).switchesOff hoff⟩
    · exact .inr ⟨j, b, Nat.lt_succ_of_lt hj, hb, hoff⟩
  | passed h ih => exact ih hf hknows hl trivial hs
  | switched hset h ih =>
    have hstep : Step _ _ _ := .switch hset
    exact ih (hf.congr hstep.catalog) (hknows.step hstep) (hl.setEnabled hset) trivial
      (hs.setEnabled hl hset)
  | @cascaded f target epoch rule rest run mid run' ht h hrest ih ihrest =>
    have hinstalled := installed_of_target? ht f.context
    have hsteps := (h.steps hinstalled).2
    exact ihrest (hf.congr hsteps.catalog) (hknows.steps hsteps) (hl.steps hsteps) trivial
      (ih hinstalled hknows hl trivial hs)
  | expires hd h ih =>
    exact ih hf (hknows.step (.expire _ _ _ hd)) (hl.step (.expire _ _ _ hd)) trivial
      ((keepsFlags_scheduleExpiry ..).settled hs)

theorem Offers.settled {run run' : Run} (h : Offers run run')
    (hknows : run.engine.Knows actions known) (hl : run.engine.Linked)
    (hs : run.engine.Settled actions known) : run'.engine.Settled actions known := by
  induction h with
  | refl => exact hs
  | tail hoffers hlast ih =>
    obtain ⟨f, hf, hleads⟩ := hlast
    have hsteps := (show Offers _ _ from hoffers).steps.2
    exact hleads.settled_engine hf (hknows.steps hsteps) (hl.steps hsteps) trivial ih

end Run

def Operation.Loads (ref : RuleRef) (rule : Rule) : Operation → Prop
  | load c _ => ref.scope = c.scope ∧ c.rules.find? (·.id == ref.rule) = some rule
  | reload c _ => ref.scope = c.scope ∧ c.rules.find? (·.id == ref.rule) = some rule
  | _ => False

def Loaded (ops : List Operation) (ref : RuleRef) (rule : Rule) : Prop :=
  ∃ op ∈ ops, op.Loads ref rule

theorem Loaded.cons {ops : List Operation} {rule : Rule} (h : Loaded ops ref rule) (op : Operation) :
    Loaded (op :: ops) ref rule := by
  obtain ⟨o, ho, hl⟩ := h
  exact ⟨o, List.mem_cons_of_mem _ ho, hl⟩

namespace Engine

variable {e e' : Engine} {op : Operation}

theorem Settled.mono {known' : RuleRef → Rule → Prop} (hs : e.Settled actions known)
    (hk : ∀ ref rule, known ref rule → known' ref rule) : e.Settled actions known' := by
  intro h r c hr hp
  refine (hs h r c hr hp).imp_right ?_
  rintro ⟨j, a, hj, ha, hoff⟩
  exact ⟨j, a, hj, ha, hoff.mono hk⟩

section Install

variable {c : Content} {carried : List (RuleRef × RuleState)}

theorem Settled.detach (hl : e.Linked) (hs : e.Settled actions known) (scope : Scope) :
    (e.detach scope).Settled actions known := by
  refine hs.frame fun k r c hr hp => ⟨⟨r, (job?_of_detach hr).1, hp⟩, fun hon => ?_⟩
  have hscope : c.firing.ref.scope ≠ scope := hl.scope_of_job?_detach hr (by rw [hp]; rfl)
  refine hon.congr (by rw [rule?_detach, if_neg hscope]) ?_
  rw [flagOf, show (e.detach scope).states = e.states.withoutScope scope from rfl,
    RuleStates.stateOf_withoutScope, if_neg hscope]
  rfl

theorem Settled.install (hl : e.Linked) (hs : e.Settled actions known)
    (hc : e.catalog.contains c.scope = false) (hrules : Content.Sound c.rules)
    (hcarries : Carries c carried) (now : Instant) :
    (e.install c carried now).2.Settled actions known := by
  refine install_induct (motive := fun e' => e'.Settled actions known) hrules hl.catalog ?_
    (fun e' r _ h => (keepsFlags_applyRecord e' r).settled h)
    fun e' r epoch _ h => (keepsFlags_armTimer e' c.scope epoch r now).settled h
  refine hs.frame fun k r d hr hp => ⟨⟨r, hr, hp⟩, fun hon => ?_⟩
  have hscope : d.firing.ref.scope ≠ c.scope := hl.scope_of_job hc hr (by rw [hp]; rfl)
  refine hon.congr (rule?_placed_of_ne hscope) ?_
  rw [flagOf, stateOf_placed_of_ne hcarries hscope]
  rfl

theorem Settled.reload (hl : e.Linked) (hs : e.Settled actions known)
    (hrules : Content.Sound c.rules) (now : Instant) :
    (e.reload c now).2.Settled actions known :=
  (hs.detach hl c.scope).install (hl.detach c.scope) (not_contains_detach ..) hrules
    (carries_carriedStates e c) now

theorem Settled.load (hl : e.Linked) (hs : e.Settled actions known) (hrules : Content.Sound c.rules)
    (now : Instant) : (e.load c now).2.Settled actions known := by
  rcases load_eq_install e c now with ⟨h, hc⟩ | h <;> rw [h]
  · exact hs.install hl hc hrules (carries_nil c) now
  · exact hs.reload hl hrules now

end Install

theorem Settled.runNext? {w w' : World} {now : Instant} {notices : List Notice} (hl : e.Linked)
    (hknows : e.Knows actions known) (hs : e.Settled actions known)
    (h : e.runNext? w now = some (notices, e', w')) :
    e'.Settled actions known ∧ e'.Knows actions known := by
  obtain ⟨k, r, hr, hdue, hcases⟩ := runNext?_eq_some hl h
  have hkeepsFlags := keepsFlags_taken hr now
  have hknows' := hknows.congr (settings_taken e k r now) (catalog_taken e k r now)
  rcases hcases with ⟨_, _, _, -, rfl⟩ | ⟨stage, run, run', hbegins, hrun, rfl, hf, hleads, rfl⟩
  · exact ⟨hkeepsFlags.settled hs, hknows'⟩
  · have hready : Run.Ready actions known run stage := by
      generalize hp : r.payload = job at hbegins
      cases hbegins with
      | timer => trivial
      | continuation c =>
        refine (hs k r c hr hp).imp_left fun hon => ?_
        rw [hrun]
        exact hkeepsFlags.isOn hon
    have hsettled : run.engine.Settled actions known := hrun ▸ hkeepsFlags.settled hs
    have hlinked : run.engine.Linked := hrun ▸ hl.taken hr run.now
    rw [← hrun] at hknows'
    exact ⟨hleads.settled_engine hf hknows' hlinked hready hsettled,
      hknows'.steps (hleads.steps hf).2⟩

section Perform

theorem Knows.mono {known' : RuleRef → Rule → Prop} (h : e.Knows actions known)
    (hk : ∀ ref rule, known ref rule → known' ref rule) : e.Knows actions known' :=
  ⟨h.actions, fun ref rule hr => hk ref rule (h.rules ref rule hr)⟩

theorem Knows.install {c : Content} {carried : List (RuleRef × RuleState)} {now : Instant}
    (h : e.Knows actions known) (hrules : Content.Sound c.rules) (hsound : e.catalog.Sound)
    (hnew : ∀ ref rule, ref.scope = c.scope → c.rules.find? (·.id == ref.rule) = some rule →
      known ref rule) : (e.install c carried now).2.Knows actions known := by
  refine ⟨by rw [settings_install hrules hsound, h.actions], fun ref rule hr => ?_⟩
  rw [catalog_install hrules hsound] at hr
  by_cases hs : ref.scope = c.scope
  · cases ref
    cases hs
    exact hnew _ rule rfl ((Catalog.rule?_insert_self ..).symm.trans hr)
  · rw [rule?_placed_of_ne hs] at hr
    exact h.rules ref rule hr

theorem Knows.detach (h : e.Knows actions known) (scope : Scope) :
    (e.detach scope).Knows actions known := by
  refine ⟨h.actions, fun ref rule hr => ?_⟩
  rw [rule?_detach] at hr
  split at hr
  · cases hr
  · exact h.rules ref rule hr

theorem Knows.offers {run run' : Run} (h : run.engine.Knows actions known)
    (hoffers : Run.Offers run run') : run'.engine.Knows actions known := h.steps hoffers.steps.2

theorem settled_perform {ops : List Operation} (hl : e.Linked)
    (hknows : e.Knows actions (Loaded ops)) (hs : e.Settled actions (Loaded ops)) (ha : op.Authored)
    (hp : e.perform op = some e') :
    e'.Settled actions (Loaded (op :: ops)) ∧ e'.Knows actions (Loaded (op :: ops)) := by
  replace hknows := hknows.mono fun _ _ h => h.cons op
  replace hs := hs.mono fun _ _ h => h.cons op
  have hreload {c : Content} {now : Instant} (hrules : Content.Sound c.rules)
      (hnew : ∀ ref rule, ref.scope = c.scope → c.rules.find? (·.id == ref.rule) = some rule →
        op.Loads ref rule) : (e.reload c now).2.Knows actions (Loaded (op :: ops)) :=
    (hknows.detach c.scope).install hrules (hl.detach c.scope).catalog fun ref rule hscope hr =>
      ⟨op, List.mem_cons_self, hnew ref rule hscope hr⟩
  cases performs_of_perform hl.catalog hp with
  | unchanged => exact ⟨hs, hknows⟩
  | loaded c now =>
    refine ⟨hs.load hl ha.sound now, ?_⟩
    rcases load_eq_install e c now with ⟨h, -⟩ | h <;> rw [h]
    · exact hknows.install ha.sound hl.catalog fun ref rule hscope hr =>
        ⟨_, List.mem_cons_self, hscope, hr⟩
    · exact hreload ha.sound fun _ _ hscope hr => ⟨hscope, hr⟩
  | reloaded c now =>
    exact ⟨hs.reload hl ha.sound now, hreload ha.sound fun _ _ hscope hr => ⟨hscope, hr⟩⟩
  | unloaded scope => exact ⟨hs.detach hl scope, hknows.detach scope⟩
  | @switched _ _ now _ _ h => exact ⟨hs.setEnabled hl h, hknows.step (show Step now e _ from .switch h)⟩
  | offered ht h => exact ⟨h.settled hknows hl hs, hknows.offers h⟩
  | advanced h =>
    exact (advance_induct (motive := fun d => d.Linked ∧ d.Settled actions _ ∧ d.Knows actions _)
      (fun d d' _ _ _ ⟨hl', hs', hk'⟩ hrun => ⟨hl'.runNext? hrun, hs'.runNext? hl' hk' hrun⟩) h
      ⟨hl, hs, hknows⟩).2
  | restored records =>
    exact restore_induct (motive := fun d => d.Settled actions _ ∧ d.Knows actions _) records
      (fun d r ⟨hs', hk'⟩ => ⟨(keepsFlags_restoreOne d r).settled hs',
        hk'.congr (settings_restoreOne d r) (catalog_restoreOne d r)⟩) ⟨hs, hknows⟩

theorem Reaches.settled {settings : Settings} {ops : List Operation} (h : Reaches settings ops e) :
    e.Settled settings.actions (Loaded ops) ∧ e.Knows settings.actions (Loaded ops) := by
  induction h with
  | start =>
    refine ⟨?_, rfl, ?_⟩
    · intro h r c hj
      cases hj
    · intro ref rule hr
      cases hr
  | next h ha hp ih => exact settled_perform h.linked ih.2 ih.1 ha hp

end Perform

end Engine

end WorldTriggers
