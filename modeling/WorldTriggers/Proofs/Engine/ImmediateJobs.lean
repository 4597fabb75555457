import WorldTriggers.Proofs.Action
import WorldTriggers.Proofs.Engine.Draining

/-!
Which rules can keep `advance` going. A job leaves new jobs that are due at once only through a delay or
a first wait that comes to nothing: a rule that it fires may put itself off by no time, and a timer rule
that it switches on may start at once. Where no such chain of rules comes back to its start, `advance`
ends.
-/

namespace WorldTriggers

theorem Span.nonneg_of_ofSeconds? {x : Float} {d : Span} (h : Span.ofSeconds? x = some d) :
    (0 : Int) ≤ d := by
  unfold Span.ofSeconds? at h
  split at h
  · cases h
  · split at h
    · cases h
    · dsimp only at h
      split at h
      · obtain rfl := Option.some.inj h
        exact Int.natCast_nonneg _
      · cases h

theorem Instant.eq_zero_of_after? {t u : Instant} {d : Span} (hd : (0 : Int) ≤ d)
    (h : t.after? d = some u) (hu : u ≤ t) : d = (0 : Int) := by
  obtain ⟨rfl, -, -⟩ := Instant.after?_eq_some_iff.mp h
  exact le_antisymm ((add_le_iff_nonpos_right t).mp hu) hd

theorem Action.nonneg_of_wait? {a : Action} {wait : Span} (h : a.wait? = some wait) :
    (0 : Int) ≤ wait := by
  unfold Action.wait? Span.ofPositiveSeconds? at h
  split at h
  · exact Span.nonneg_of_ofSeconds? h
  · cases h

theorem Rule.nonneg_of_timerPlan? {r : Rule} {plan : Rule.TimerPlan}
    (h : r.timerPlan? = some plan) : (0 : Int) ≤ plan.initial := by
  unfold Rule.timerPlan? at h
  split at h
  · cases h
  · obtain ⟨interval, -, h⟩ := Option.bind_eq_some_iff.mp h
    obtain ⟨span, -, h⟩ := Option.bind_eq_some_iff.mp h
    obtain ⟨initial, hi, h⟩ := Option.bind_eq_some_iff.mp h
    obtain rfl := Option.some.inj h
    exact Span.nonneg_of_ofSeconds? hi

section Relations

variable (actions : ActionRegistry) (known : RuleRef → Rule → Prop)

def RuleRef.MayLeave (ref : RuleRef) (x : Followup) : Prop :=
  ∃ rule a, known ref rule ∧ a ∈ rule.actions ∧ a.MayLeave actions ref.scope x

def Fires (ref target : RuleRef) : Prop := ref.MayLeave actions known (.fireRule target)

def PutsOffAtOnce (ref : RuleRef) : Prop :=
  ∃ rule a, known ref rule ∧ a ∈ rule.actions ∧ a.wait? = some 0

def StartsAtOnce (ref : RuleRef) : Prop :=
  ∃ rule plan, known ref rule ∧ rule.timerPlan? = some plan ∧ plan.initial = 0

def LeadsToDueJob (ref target : RuleRef) : Prop :=
  Relation.TransGen (Fires actions known) ref target ∧ PutsOffAtOnce known target ∨
    ∃ x, Relation.ReflTransGen (Fires actions known) ref x ∧
      x.MayLeave actions known (.setEnabled target true) ∧ StartsAtOnce known target

end Relations

variable {actions : ActionRegistry} {known : RuleRef → Rule → Prop}

theorem LeadsToDueJob.exists_rule {ref target : RuleRef} (h : LeadsToDueJob actions known ref target) :
    ∃ rule, known target rule := by
  rcases h with ⟨-, rule, _, hk, -⟩ | ⟨_, -, -, rule, _, hk, -⟩
  · exact ⟨rule, hk⟩
  · exact ⟨rule, hk⟩

theorem LeadsToDueJob.fired {ref mid target : RuleRef} (hf : Fires actions known ref mid)
    (h : LeadsToDueJob actions known mid target) : LeadsToDueJob actions known ref target := by
  rcases h with ⟨hfires, hrest⟩ | ⟨x, hfires, hrest⟩
  · exact .inl ⟨hfires.head hf, hrest⟩
  · exact .inr ⟨x, hfires.head hf, hrest⟩

namespace Stage

def PutsOff (known : RuleRef → Rule → Prop) : Stage → Continuation → Prop
  | .attempt f, c => c.firing = f ∧ PutsOffAtOnce known f.ref
  | .actions f resumed i, c =>
    c.firing = f ∧ (if resumed then i < c.next else i ≤ c.next) ∧ PutsOffAtOnce known f.ref
  | .followups _ _, _ => False

/-- What a stage may leave that is due at once: the end of an effect, its own rule put off once more, or
a job that its rule leads to. -/
inductive MayAddDueJob (actions : ActionRegistry) (known : RuleRef → Rule → Prop) (stage : Stage) :
    Job → Prop where
  | expiry {job : Job} (h : job.ref? = none) : MayAddDueJob actions known stage job
  | own {c : Continuation} (h : stage.PutsOff known c) : MayAddDueJob actions known stage (.continuation c)
  | other {job : Job} {ref : RuleRef} (hp : job.ref? = some ref)
      (h : LeadsToDueJob actions known stage.firing.ref ref) : MayAddDueJob actions known stage job

def Warranted (actions : ActionRegistry) (known : RuleRef → Rule → Prop) : Stage → Prop
  | .followups f left => ∀ x ∈ left, f.ref.MayLeave actions known x
  | _ => True

theorem MayAddDueJob.mono {stage stage' : Stage} {job : Job} (h : stage.MayAddDueJob actions known job)
    (hf : stage'.firing = stage.firing) (hown : ∀ c, stage.PutsOff known c → stage'.PutsOff known c) :
    stage'.MayAddDueJob actions known job := by
  cases h with
  | expiry h => exact .expiry h
  | own h => exact .own (hown _ h)
  | other hp h => exact .other hp (hf ▸ h)

end Stage

namespace Run

open Engine

theorem Leads.mayAddDueJob {stage : Stage} {run run' : Run} {k : Handle} {q : Registration Job}
    (h : Leads stage run run') (hf : run.engine.Installed stage.firing)
    (hknows : run.engine.Knows actions known) (hleft : stage.Warranted actions known)
    (hq : run'.engine.job? k = some q) (hdue : q.due ≤ run.now) :
    run.engine.job? k = some q ∨ stage.MayAddDueJob actions known q.payload := by
  induction h with
  | refused | ended | settled => exact .inl hq
  | @fired f run run' hm h ih =>
    have hstep : Step run.now run.engine (run.enter f).engine := .record hf
    rcases ih (hf.congr hstep.catalog) (hknows.step hstep) trivial hq hdue with hold | hnew
    · exact .inl (job?_of_recordFiring hold)
    · refine .inr (hnew.mono rfl ?_)
      rintro c ⟨hc, -, hputs⟩
      exact ⟨hc, hputs⟩
  | @deferred f i a wait due run ha hw hd =>
    -- A continuation that is due already was put off by no time.
    rw [job?_scheduleContinuation] at hq
    split at hq
    · obtain rfl := Option.some.inj hq
      obtain rfl := Instant.eq_zero_of_after? (Action.nonneg_of_wait? hw) hd hdue
      refine .inr (.own ⟨rfl, le_refl i, f.rule, a, ?_, List.mem_of_getElem? ha, hw⟩)
      exact hknows.rules _ _ (target?_eq_some_iff.mp hf).2
    · exact .inl hq
  | @acted f resumed i a left world notices run mid run' ha hw hleaves h hrest ih ihrest =>
    obtain ⟨hnow, hsteps⟩ := h.steps hf
    have hwarranted : (Stage.followups f left).Warranted actions known := by
      intro x hx
      rw [hknows.actions] at hleaves
      exact ⟨f.rule, a, hknows.rules _ _ (target?_eq_some_iff.mp hf).2, List.mem_of_getElem? ha,
        hleaves.mayLeave hx⟩
    have hlast := ihrest (hf.congr hsteps.catalog) (hknows.steps hsteps) trivial hq
      (hdue.trans_eq hnow.symm)
    rcases hlast with hmid | hnew
    · refine (ih hf hknows hwarranted hmid hdue).imp_right fun hnew => hnew.mono rfl ?_
      intro c hc
      exact hc.elim
    · refine .inr (hnew.mono rfl ?_)
      rintro c ⟨hc, hlt, hputs⟩
      refine ⟨hc, ?_, hputs⟩
      cases resumed with
      | true => exact hlt
      | false => exact Nat.le_of_succ_le hlt
  | passed h ih =>
    have hwarranted := (List.forall_mem_cons.mp hleft).2
    exact (ih hf hknows hwarranted hq hdue).imp_right fun hnew => hnew.mono rfl fun _ => id
  | @switched f target enabled rest notice engine run run' hset h ih =>
    have hstep : Step run.now run.engine engine := .switch hset
    obtain ⟨hmay, hwarranted⟩ := List.forall_mem_cons.mp hleft
    rcases ih (hf.congr hstep.catalog) (hknows.step hstep) hwarranted hq hdue with hmid | hnew
    · rcases job?_of_setEnabled hset hmid with hold | ⟨rfl, epoch, r, plan, ht, hplan, hd, hp⟩
      · exact .inl hold
      · have hzero := Instant.eq_zero_of_after? (Rule.nonneg_of_timerPlan? hplan) hd hdue
        have hstarts : StartsAtOnce known target :=
          ⟨r, plan, hknows.rules _ _ (target?_eq_some_iff.mp ht).2, hplan, hzero⟩
        exact .inr (.other (by rw [hp]; rfl) (.inr ⟨f.ref, .refl, hmay, hstarts⟩))
    · exact .inr (hnew.mono rfl fun _ => id)
  | @cascaded f target epoch rule rest run mid run' ht h hrest ih ihrest =>
    have href : Firing.ref ⟨target.scope, epoch, rule, f.context⟩ = target := ref_of_target? ht _
    have hinstalled := installed_of_target? ht f.context
    obtain ⟨hmay, hwarranted⟩ := List.forall_mem_cons.mp hleft
    have hfires : Fires actions known f.ref target := hmay
    obtain ⟨hnow, hsteps⟩ := h.steps hinstalled
    have hlast := ihrest (hf.congr hsteps.catalog) (hknows.steps hsteps) hwarranted hq
      (hdue.trans_eq hnow.symm)
    rcases hlast with hmid | hnew
    · refine (ih hinstalled hknows trivial hmid hdue).imp_right fun hnew => ?_
      generalize q.payload = job at hnew ⊢
      -- The firing rule leads to what the fired rule puts off itself.
      cases hnew with
      | expiry h => exact .expiry h
      | own h =>
        obtain ⟨hc, hputs⟩ := h
        rw [href] at hputs
        have hc : Job.ref? (.continuation _) = some target :=
          congrArg some ((congrArg Firing.ref hc).trans href)
        exact .other hc (.inl ⟨.single hfires, hputs⟩)
      | other hp h =>
        rw [Stage.firing, href] at h
        exact .other hp (h.fired hfires)
    · exact .inr (hnew.mono rfl fun _ => id)
  | expires hd h ih =>
    obtain ⟨-, hwarranted⟩ := List.forall_mem_cons.mp hleft
    rcases ih hf (hknows.step (.expire _ _ _ hd)) hwarranted hq hdue with hmid | hnew
    · rw [job?_scheduleExpiry] at hmid
      split at hmid
      · obtain rfl := Option.some.inj hmid
        exact .inr (.expiry rfl)
      · exact .inl hmid
    · exact .inr (hnew.mono rfl fun _ => id)

end Run

section Rank

variable (actions known)

noncomputable def rank (ref : RuleRef) : Nat :=
  {target | Relation.TransGen (LeadsToDueJob actions known) ref target}.ncard

def Acyclic : Prop := ∀ ref, ¬Relation.TransGen (LeadsToDueJob actions known) ref ref

theorem acyclic_of_waits (h : ∀ ref, ¬PutsOffAtOnce known ref ∧ ¬StartsAtOnce known ref) :
    Acyclic actions known := by
  intro ref hcycle
  obtain ⟨target, hr, -⟩ := Relation.TransGen.head'_iff.mp hcycle
  rcases hr with ⟨-, hputs⟩ | ⟨_, -, -, hstarts⟩
  · exact (h target).1 hputs
  · exact (h target).2 hstarts

/-- How far a job is from the end: less than any job of its rule is what it may leave. A timer comes
before what its rule puts off, and that goes by the number of actions that are left. -/
noncomputable def Job.height : Job → Nat ×ₗ Nat
  | .expireEffect .. => toLex (0, 0)
  | .continuation c =>
    toLex (2 * rank actions known c.firing.ref + 1, c.firing.rule.actions.length - c.next)
  | .ruleTimer ref _ => toLex (2 * rank actions known ref + 2, 0)

variable {actions known}

theorem rank_lt (hfinite : {ref | ∃ rule, known ref rule}.Finite) (hacyclic : Acyclic actions known)
    {ref target : RuleRef} (h : LeadsToDueJob actions known ref target) :
    rank actions known target < rank actions known ref := by
  -- What the target leads to, the rule leads to as well, and to the target besides.
  apply Set.ncard_lt_ncard
  · constructor
    · intro x hx
      exact Relation.TransGen.head h hx
    · intro hsub
      exact hacyclic target (hsub (.single h))
  · apply hfinite.subset
    intro x hx
    obtain ⟨y, -, hy⟩ := Relation.TransGen.tail'_iff.mp hx
    exact hy.exists_rule

theorem height_lt_of_rank_lt {job job' : Job} {ref ref' : RuleRef} (hj : job.ref? = some ref)
    (hj' : job'.ref? = some ref') (h : rank actions known ref' < rank actions known ref) :
    job'.height actions known < job.height actions known := by
  have hupper : (ofLex (job'.height actions known)).1 ≤ 2 * rank actions known ref' + 2 := by
    cases job' <;> cases hj'
    · exact le_refl _
    · exact Nat.le_succ _
  have hlower : 2 * rank actions known ref + 1 ≤ (ofLex (job.height actions known)).1 := by
    cases job <;> cases hj
    · exact Nat.le_succ _
    · exact le_refl _
  apply Prod.Lex.lt_iff.mpr
  left
  omega

theorem Stage.MayAddDueJob.height_lt {job job' : Job} {stage : Stage}
    (h : stage.MayAddDueJob actions known job') (hbegins : job.Begins stage)
    (hrank : ∀ ref target, LeadsToDueJob actions known ref target →
      rank actions known target < rank actions known ref)
    (hnext : ∀ c, job = .continuation c → c.next < c.firing.rule.actions.length) :
    job'.height actions known < job.height actions known := by
  have hj := hbegins.ref?_eq
  cases h with
  | expiry h =>
    cases job' with
    | expireEffect =>
      cases job with
      | expireEffect => cases hj
      | ruleTimer => exact Prod.Lex.left _ _ (Nat.succ_pos _)
      | continuation => exact Prod.Lex.left _ _ (Nat.succ_pos _)
    | ruleTimer => cases h
    | continuation => cases h
  | @own c h =>
    cases hbegins with
    | @timer ref rule epoch context hid =>
      obtain ⟨hc, -⟩ := h
      have href : c.firing.ref = ref := (congrArg Firing.ref hc).trans (Option.some.inj hj).symm
      apply Prod.Lex.left
      rw [href]
      exact Nat.lt_succ_self _
    | continuation d =>
      obtain ⟨hc, hlt, -⟩ := h
      have hlength := hnext d rfl
      rw [if_pos rfl] at hlt
      change toLex (2 * rank actions known c.firing.ref + 1, _) < toLex (_, _)
      rw [hc]
      exact Prod.Lex.right _ (Nat.sub_lt_sub_left hlength hlt)
  | other hp h => exact height_lt_of_rank_lt hj hp (hrank _ _ h)

end Rank

namespace Engine

variable {e e' : Engine} {w w' : World} {now : Instant} {notices : List Notice}

def Has (e : Engine) (ref : RuleRef) (rule : Rule) : Prop := e.catalog.rule? ref = some rule

theorem Linked.descends_height (hl : e.Linked) (hknows : e.Knows actions known)
    (hrank : ∀ ref target, LeadsToDueJob actions known ref target →
      rank actions known target < rank actions known ref)
    (h : e.runNext? w now = some (notices, e', w')) :
    Descends (fun r => r.payload.height actions known) now e e' := by
  obtain ⟨k, r, hr, hdue, hcases⟩ := runNext?_eq_some hl h
  refine ⟨k, r, hr, hdue, fun j q hq hqdue => ?_⟩
  rcases hcases with ⟨_, _, _, -, rfl⟩ | ⟨stage, run, run', hbegins, hrun, rfl, hf, hleads, rfl⟩
  · exact .inl (hl.due_of_taken hr hq hqdue)
  · have hknows' : run.engine.Knows actions known := by
      rw [hrun]
      exact hknows.congr (settings_taken ..) (catalog_taken ..)
    have hwarranted : stage.Warranted actions known := by
      generalize r.payload = job at hbegins
      cases hbegins <;> trivial
    rcases hleads.mayAddDueJob hf hknows' hwarranted hq hqdue with hold | hnew
    · rw [hrun] at hold
      exact .inl (hl.due_of_taken hr hold hqdue)
    · refine .inr (hnew.height_lt hbegins hrank fun c hp => ?_)
      have hfits := hl.fits k r hr
      simp only [Fits, hp] at hfits
      exact hfits.2.1

theorem Linked.drains_of_acyclic (hl : e.Linked)
    (hacyclic : Acyclic e.settings.actions e.Has) :
    Drains now e w := by
  have hrank (ref target : RuleRef) (hr : LeadsToDueJob e.settings.actions e.Has ref target) :
      rank e.settings.actions e.Has target < rank e.settings.actions e.Has ref :=
    rank_lt e.catalog.finite_rules hacyclic hr
  let inv (d : Engine) (_ : World) : Prop :=
    d.Linked ∧ d.Knows e.settings.actions e.Has
  have hinv : inv e w := ⟨hl, rfl, fun _ _ => id⟩
  have hstep (d : Engine) (v : World) (notices : List Notice) (d' : Engine) (v' : World)
      (hd : inv d v) (hrun : d.runNext? v now = some (notices, d', v')) : inv d' v' ∧
        Descends (fun r => r.payload.height e.settings.actions e.Has) now d d' := by
    obtain ⟨hd, hknows⟩ := hd
    obtain ⟨k, r, hr, -, hsteps⟩ := runNext?_steps hd hrun
    have htaken := hknows.congr (settings_taken d k r now) (catalog_taken d k r now)
    exact ⟨⟨hd.runNext? hrun, htaken.steps hsteps⟩,
      hd.descends_height hknows hrank hrun⟩
  exact drains_of_descends hstep hinv

end Engine

end WorldTriggers
