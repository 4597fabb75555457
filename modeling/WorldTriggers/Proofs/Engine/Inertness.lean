import WorldTriggers.Proofs.Engine.Counting
import WorldTriggers.Proofs.Engine.Draining
import WorldTriggers.Proofs.Engine.Sequencing
import WorldTriggers.Proofs.Engine.Switching

namespace WorldTriggers

def RuleEvent.IsOf (ref : RuleRef) : RuleEvent → Prop
  | fired o => o.ref = ref
  | stopped s _ => s.firing.ref = ref
  | woke _ | switched .. | removed _ => False

theorem Ledger.fireCount_of_none_own {ref : RuleRef} {restored : Record → Prop} {s t : RuleState}
    {os : List Onset} (h : Ledger ref restored s os t) (hos : ∀ o ∈ os, o.ref ≠ ref) :
    t.fireCount = s.fireCount ∨ ∃ r, restored r ∧ t.fireCount = r.fireCount := by
  induction h with
  | closed => exact .inl rfl
  | other ho _ ih => exact ih (List.forall_mem_cons.mp hos).2
  | own ho hs _ _ => exact absurd ho (List.forall_mem_cons.mp hos).1
  | @record r os s t hr h ih =>
    rcases ih hos with hsame | hlater
    · exact .inr ⟨r, hr, hsame⟩
    · exact .inr hlater

namespace Engine

variable {e e' : Engine} {ref : RuleRef} {now : Instant} {notice : Notice}

structure Inert (e : Engine) (ref : RuleRef) : Prop where
  off : e.flagOf ref = some false
  idle : ∀ h r c, e.job? h = some r → r.payload = .continuation c → c.firing.ref ≠ ref

theorem KeepsFlags.inert (h : KeepsFlags e e') (hi : e.Inert ref) : e'.Inert ref where
  off := (h.flags ref).trans hi.off
  idle k r c hr hp := by
    obtain ⟨q, hq, hpq⟩ := h.deferred k r c hr hp
    exact hi.idle k q c hq hpq

theorem Linked.inert_of_setEnabled (hl : e.Linked)
    (h : e.setEnabled ref false now = .ok (notice, e')) : e'.Inert ref where
  off := by rw [(keepsFlags_setEnabled h).flags, flagOf_flag, if_pos rfl]
  idle _ _ _ hr hp := not_deferred_of_setEnabled hl h hr hp

namespace Inert

theorem setEnabled {k : RuleRef} {enabled : Bool} (hi : e.Inert ref)
    (h : e.setEnabled k enabled now = .ok (notice, e')) (hk : k = ref → enabled = false) :
    e'.Inert ref := by
  refine (keepsFlags_setEnabled h).inert ⟨?_, hi.idle⟩
  rw [flagOf_flag]
  split
  · rw [hk (Eq.symm ‹_›)]
  · exact hi.off

theorem scheduleContinuation {c : Continuation} (hi : e.Inert ref) (hc : c.firing.ref ≠ ref)
    (due : Instant) : (e.scheduleContinuation c due).Inert ref := by
  refine ⟨hi.off, fun k r d hr hp => ?_⟩
  rw [job?_scheduleContinuation] at hr
  split at hr
  · cases hr
    cases hp
    exact hc
  · exact hi.idle k r d hr hp

theorem detach {scope : Scope} (hi : e.Inert ref) (hs : ref.scope ≠ scope) :
    (e.detach scope).Inert ref where
  off := by
    rw [flagOf, show (e.detach scope).states = e.states.withoutScope scope from rfl,
      RuleStates.stateOf_withoutScope, if_neg hs]
    exact hi.off
  idle k r c hr hp := hi.idle k r c (job?_of_detach hr).1 hp

theorem install {c : Content} {carried : List (RuleRef × RuleState)} (hi : e.Inert ref)
    (hrules : Content.Sound c.rules) (hsound : e.catalog.Sound) (hcarries : Carries c carried)
    (hs : ref.scope ≠ c.scope) (now : Instant) : (e.install c carried now).2.Inert ref := by
  refine install_induct (motive := fun d => d.Inert ref) hrules hsound ⟨?_, hi.idle⟩
    (fun d r _ hd => (keepsFlags_applyRecord d r).inert hd)
    fun d r epoch _ hd => (keepsFlags_armTimer ..).inert hd
  rw [flagOf, stateOf_placed_of_ne hcarries hs]
  exact hi.off

end Inert

end Engine

def Passage.Foreign (ref : RuleRef) : Passage → Prop
  | actions s _ _ => s.firing.ref ≠ ref
  | offers _ | attempt _ | followups .. => True

namespace Run

open Engine

variable {max depth depth' : Nat} {passage : Passage} {run run' : Run} {ds : List RuleEvent}
  {ref : RuleRef} {f : Firing}

theorem ref_ne_of_mayFire (hi : run.engine.Inert ref) (hm : f.mayFire run) : f.ref ≠ ref := by
  rintro rfl
  simp only [Firing.mayFire, Firing.isAllowed, Bool.and_eq_true] at hm
  have hon := hm.1.2.1.1
  have hoff : (run.engine.states.stateOf f.ref).enabledOverride = some false := hi.off
  rw [RuleState.isEnabled, hoff] at hon
  cases hon

theorem inert_applyFollowup {x : Followup} (hx : ∀ target, x ≠ .fireRule target) (f : Firing)
    (hi : run.engine.Inert ref) (hoff : .switched ref true ∉ followupRuleEvents none f run x) :
    (applyFollowup none f run x).engine.Inert ref ∧
      ∀ y ∈ followupRuleEvents none f run x, ¬y.IsOf ref := by
  cases x with
  | fireRule target => exact absurd rfl (hx target)
  | setEnabled target enabled =>
    unfold applyFollowup
    unfold followupRuleEvents at hoff ⊢
    dsimp only at hoff ⊢
    cases hset : run.engine.setEnabled target enabled run.now with
    | error err => exact ⟨hi, List.forall_mem_nil _⟩
    | ok set =>
      rw [hset] at hoff
      refine ⟨hi.setEnabled hset fun hk => ?_, by simp [RuleEvent.IsOf]⟩
      cases enabled with
      | false => rfl
      | true => exact absurd (by simp [hk]) hoff
  | expireEffect actor effect stat after =>
    unfold applyFollowup
    dsimp only
    split
    · exact ⟨(keepsFlags_scheduleExpiry ..).inert hi, List.forall_mem_nil _⟩
    · exact ⟨hi, List.forall_mem_nil _⟩

theorem Unfolds.inert (h : Unfolds max passage depth run ds depth' run')
    (hp : passage.Foreign ref) (hi : run.engine.Inert ref) (hoff : .switched ref true ∉ ds) :
    run'.engine.Inert ref ∧ ∀ x ∈ ds, ¬x.IsOf ref := by
  induction h with
  | done | refused | settled => exact ⟨hi, List.forall_mem_nil _⟩
  | offered h hrest ih ihrest =>
    rw [List.mem_append, not_or] at hoff
    obtain ⟨hmid, hfirst⟩ := ih trivial hi hoff.1
    obtain ⟨hdone, hlater⟩ := ihrest trivial hmid hoff.2
    exact ⟨hdone, List.forall_mem_append.mpr ⟨hfirst, hlater⟩⟩
  | @fired f depth depth' run run' ds hm h ih =>
    have hne := ref_ne_of_mayFire hi hm
    obtain ⟨hdone, hacted⟩ := ih hne ((keepsFlags_recordFiring run.engine f run.now).inert hi)
      fun hmem => hoff (List.mem_cons_of_mem _ hmem)
    exact ⟨hdone, List.forall_mem_cons.mpr ⟨hne, hacted⟩⟩
  | finished | stranded => exact ⟨hi, List.forall_mem_singleton.mpr hp⟩
  | @deferred s i a wait due depth run ha hw hd =>
    have hc : (⟨s.firing, i⟩ : Continuation).firing.ref ≠ ref := hp
    exact ⟨hi.scheduleContinuation hc due, List.forall_mem_singleton.mpr hp⟩
  | calledOff ha hw hc h ih =>
    rw [List.mem_append, not_or] at hoff
    obtain ⟨hdone, hfollowed⟩ := ih trivial (by rwa [engine_act]) hoff.1
    exact ⟨hdone, List.forall_mem_append.mpr ⟨hfollowed, List.forall_mem_singleton.mpr hp⟩⟩
  | acted ha hw hc h hrest ih ihrest =>
    rw [List.mem_append, not_or] at hoff
    obtain ⟨hmid, hfollowed⟩ := ih trivial (by rwa [engine_act]) hoff.1
    obtain ⟨hdone, hlater⟩ := ihrest hp hmid hoff.2
    exact ⟨hdone, List.forall_mem_append.mpr ⟨hfollowed, hlater⟩⟩
  | followed hx h ih =>
    rw [List.mem_append, not_or] at hoff
    obtain ⟨hmid, hfirst⟩ := inert_applyFollowup hx _ hi hoff.1
    obtain ⟨hdone, hlater⟩ := ih trivial hmid hoff.2
    exact ⟨hdone, List.forall_mem_append.mpr ⟨hfirst, hlater⟩⟩
  | tooDeep hd h ih => exact ih trivial hi hoff
  | missing hd ht h ih => exact ih trivial hi hoff
  | cascaded hd ht h hrest ih ihrest =>
    rw [List.mem_append, not_or] at hoff
    obtain ⟨hmid, hfirst⟩ := ih trivial hi hoff.1
    obtain ⟨hdone, hlater⟩ := ihrest trivial hmid hoff.2
    exact ⟨hdone, List.forall_mem_append.mpr ⟨hfirst, hlater⟩⟩

theorem Unfolds.not_woke (h : Unfolds max passage depth run ds depth' run') (k : Handle) :
    .woke k ∉ ds := by
  induction h with
  | followed hx h ih =>
    rename_i f x rest _ _ run _ _
    have hfirst : .woke k ∉ followupRuleEvents none f run x := by
      unfold followupRuleEvents
      cases x with
      | fireRule target => exact absurd rfl (hx target)
      | setEnabled target enabled => dsimp only; split <;> simp
      | expireEffect => simp
    simp [hfirst, ih]
  | _ => simp_all

end Run

namespace Engine

variable {e e' : Engine} {ref : RuleRef} {now : Instant} {op : Operation} {ds : List RuleEvent}

theorem OperationStep.inert (hl : e.Linked) (h : OperationStep op e ds e') (hop : op.Avoids ref.scope)
    (hi : e.Inert ref) (hoff : .switched ref true ∉ ds) :
    e'.Inert ref ∧ ∀ x ∈ ds, ¬x.IsOf ref := by
  cases h with
  | loaded hc ht hrules hn =>
    have hinstalled := hi.install hrules hl.catalog (carries_nil _) (Ne.symm (hop.1 _ hc))
    exact ⟨hinstalled _, List.forall_mem_nil _⟩
  | @replaced c now hc ht hrules =>
    have hne : ref.scope ≠ c.scope := Ne.symm (hop.1 _ hc)
    refine ⟨(hi.detach hne).install hrules (hl.detach _).catalog (carries_carriedStates e c) hne now, ?_⟩
    unfold removal
    split
    · simp [RuleEvent.IsOf]
    · exact List.forall_mem_nil _
  | @removed scope hop' hc =>
    have hne : ref.scope ≠ scope := by
      rintro rfl
      exact hop.2 hop'
    exact ⟨hi.detach hne, by simp [RuleEvent.IsOf]⟩
  | @switched _ k enabled now notice ht h =>
    refine ⟨hi.setEnabled h fun hk => ?_, by simp [RuleEvent.IsOf]⟩
    cases enabled with
    | false => rfl
    | true => exact absurd (by simp [hk]) hoff
  | @offered now fs ht w hfs =>
    have hunfolds := Passage.unfolds (Nat.zero_le e.settings.maxDepth) (.offers fs) (Run.start e w now)
    exact hunfolds.inert trivial hi hoff
  | popped ht hr hdue hp => exact ⟨(keepsFlags_taken hr _).inert hi, List.forall_mem_nil _⟩
  | @woken k r c now ht w hr hdue hp =>
    let run := Run.start (e.taken k r now) w now
    have hunfolds := Passage.unfolds (Nat.zero_le run.engine.settings.maxDepth)
      (.actions ⟨c.firing, now, []⟩ true c.next) { run with visited := c.firing.ref :: run.visited }
    -- An inert rule has nothing pending, so what is taken up here was put off by another one.
    obtain ⟨hdone, hacted⟩ := hunfolds.inert (hi.idle k r c hr hp)
      ((keepsFlags_taken hr now).inert hi) fun hmem => hoff (List.mem_cons_of_mem _ hmem)
    rw [Run.resume_eq run c 0]
    exact ⟨hdone, List.forall_mem_cons.mpr ⟨id, hacted⟩⟩
  | restored hop' hr => exact ⟨(keepsFlags_restoreOne ..).inert hi, List.forall_mem_nil _⟩

structure UsedUp (e : Engine) (k : Handle) : Prop where
  issued : k < e.schedule.nextHandle
  gone : e.job? k = none

section UsedUp

variable {k : Handle}

theorem Grows.usedUp (h : Grows e e') (hk : e.UsedUp k) : e'.UsedUp k := by
  refine ⟨hk.issued.trans_le h.next, ?_⟩
  by_contra hpending
  obtain ⟨r, hr⟩ := Option.ne_none_iff_exists'.mp hpending
  rcases h.jobs k r hr with hold | hnew
  · rw [hk.gone] at hold
    cases hold
  · exact absurd hk.issued (Nat.not_lt.mpr hnew)

theorem usedUp_taken {j : Handle} {r : Registration Job} (hr : e.job? j = some r) (hk : e.UsedUp k)
    (now : Instant) : (e.taken j r now).UsedUp k := by
  refine ⟨by rw [schedule_taken, Schedule.nextHandle_rearm]; exact hk.issued, ?_⟩
  by_contra hpending
  obtain ⟨q, hq⟩ := Option.ne_none_iff_exists'.mp hpending
  obtain ⟨p, hp, -⟩ := job?_of_taken hr hq
  rw [hk.gone] at hp
  cases hp

theorem grows_applyRecord (e : Engine) (r : Record) : Grows e (e.applyRecord r).2 := by
  have hset : Grows e { e with states := e.states.update r.ref (·.restore r) } :=
    grows_of_schedule rfl
  rcases applyRecord_cases e r with ⟨-, h⟩ | ⟨_, -, -, ⟨-, h⟩ | ⟨-, h⟩⟩ <;> rw [h]
  · exact .refl e
  · exact hset.trans (grows_disarmTimer ..)
  · exact hset

theorem grows_install {c : Content} {carried : List (RuleRef × RuleState)}
    (hrules : Content.Sound c.rules) (hsound : e.catalog.Sound) (now : Instant) :
    Grows e (e.install c carried now).2 :=
  install_induct (motive := fun d => Grows e d) hrules hsound (grows_of_schedule rfl)
    (fun d r _ hd => hd.trans (grows_applyRecord d r)) fun _ _ _ _ hd => hd.trans (grows_armTimer ..)

theorem grows_detach (e : Engine) (scope : Scope) : Grows e (e.detach scope) :=
  ⟨le_rfl, fun _ _ hr => .inl (job?_of_detach hr).1⟩

theorem grows_restoreOne (e : Engine) (r : Record) : Grows e (e.restoreOne r).2 := by
  unfold restoreOne
  split
  · exact grows_applyRecord e r
  · exact grows_of_schedule rfl

theorem OperationStep.usedUp (hl : e.Linked) (h : OperationStep op e ds e') (hk : e.UsedUp k) :
    e'.UsedUp k ∧ .woke k ∉ ds := by
  cases h with
  | loaded hc ht hrules hn => exact ⟨(grows_install hrules hl.catalog _).usedUp hk, List.not_mem_nil⟩
  | @replaced c now hc ht hrules =>
    have hdetached : (e.detach c.scope).UsedUp k := (grows_detach e c.scope).usedUp hk
    refine ⟨(grows_install hrules (hl.detach _).catalog now).usedUp hdetached, ?_⟩
    unfold removal
    split <;> simp
  | removed hop hc => exact ⟨(grows_detach ..).usedUp hk, by simp⟩
  | switched ht h => exact ⟨(grows_setEnabled h).usedUp hk, by simp⟩
  | @offered now fs ht w hfs =>
    have hunfolds := Passage.unfolds (Nat.zero_le e.settings.maxDepth) (.offers fs) (Run.start e w now)
    exact ⟨(steps_attempts hfs _ w _).grows.usedUp hk, hunfolds.not_woke k⟩
  | popped ht hr hdue hp => exact ⟨usedUp_taken hr hk _, List.not_mem_nil⟩
  | @woken j r c now ht w hr hdue hp =>
    let run := Run.start (e.taken j r now) w now
    have hunfolds := Passage.unfolds (Nat.zero_le run.engine.settings.maxDepth)
      (.actions ⟨c.firing, now, []⟩ true c.next) { run with visited := c.firing.ref :: run.visited }
    have hne : k ≠ j := by
      rintro rfl
      rw [hk.gone] at hr
      cases hr
    refine ⟨(hl.steps_resume hr hp w now).grows.usedUp (usedUp_taken hr hk now), ?_⟩
    rw [Run.resumeRuleEvents, List.mem_cons, not_or]
    exact ⟨by simpa using hne, hunfolds.not_woke k⟩
  | restored hop hr => exact ⟨(grows_restoreOne ..).usedUp hk, List.not_mem_nil⟩

end UsedUp

structure LeavesOff (e : Engine) (ref : RuleRef) (later : List Operation) : Prop where
  authored : ∀ op ∈ later, op.Authored
  avoids : ∀ op ∈ later, op.Avoids ref.scope
  off : .switched ref true ∉ e.ruleEventsSince later

theorem Inert.since {later : List Operation} (hi : e.Inert ref) (hl : e.Linked)
    (hrule : e.HasRule ref (fun _ => True) false) (hlater : e.LeavesOff ref later) :
    (∀ x ∈ e.ruleEventsSince later, ¬x.IsOf ref) ∧ ∀ d, e.performAll? later = some d →
      d.Linked ∧ d.HasRule ref (fun _ => True) false := by
  obtain ⟨e', ⟨hlinked, hhas, hinert⟩, hlast⟩ := ruleEventsSince_induct
    (motive := fun ds d => d.Linked ∧ d.HasRule ref (fun _ => True) false ∧
      (.switched ref true ∉ ds → d.Inert ref ∧ ∀ x ∈ ds, ¬x.IsOf ref)) hl hlater.authored
    (fun op hop ds d ds' d' hd hopStep hm => by
      obtain ⟨-, hhas, hinert⟩ := hm
      have havoids := hlater.avoids op hop
      refine ⟨hd.operationStep hopStep, hhas.operationStep hd hopStep (.inl havoids), fun hoff => ?_⟩
      rw [List.mem_append, not_or] at hoff
      obtain ⟨hmid, hfirst⟩ := hinert hoff.1
      obtain ⟨hdone, hthen⟩ := hopStep.inert hd havoids hmid hoff.2
      exact ⟨hdone, List.forall_mem_append.mpr ⟨hfirst, hthen⟩⟩)
    ⟨hl, hrule, fun _ => ⟨hi, List.forall_mem_nil _⟩⟩
  refine ⟨(hinert hlater.off).2, fun d hd => ?_⟩
  obtain rfl := hlast d hd
  exact ⟨hlinked, hhas⟩

theorem UsedUp.since {later : List Operation} {k : Handle} (hk : e.UsedUp k) (hl : e.Linked)
    (ha : ∀ op ∈ later, op.Authored) : .woke k ∉ e.ruleEventsSince later := by
  obtain ⟨e', ⟨-, hnot⟩, -⟩ := ruleEventsSince_induct
    (motive := fun ds d => d.UsedUp k ∧ .woke k ∉ ds) hl ha
    (fun op _ ds d ds' d' hd hopStep hm => by
      obtain ⟨husedUp, hnot⟩ := hopStep.usedUp hd hm.1
      exact ⟨husedUp, by simp [hm.2, hnot]⟩)
    ⟨hk, List.not_mem_nil⟩
  exact hnot

theorem onsets_ne_of_quiet {x : Onset} (h : ∀ y ∈ ds, ¬y.IsOf ref) (hx : x ∈ onsets ds) :
    x.ref ≠ ref := by
  obtain ⟨y, hy, hyx⟩ := List.mem_filterMap.mp hx
  have hnot := h y hy
  cases y with
  | fired o =>
    cases hyx
    exact hnot
  | woke | stopped | switched | removed => cases hyx

theorem Inert.countOf {later : List Operation} {d d' : Engine} (hi : e.Inert ref) (hl : e.Linked)
    (hrule : e.HasRule ref (fun _ => True) false) (hlater : e.LeavesOff ref (op :: later))
    (hd : e.performAll? later = some d) (hp : d.perform op = some d') :
    d'.countOf ref = d.countOf ref ∨ ∃ r, op.Restores ref r ∧ d'.countOf ref = r.fireCount := by
  have hruleEvents : e.ruleEventsSince (op :: later) = e.ruleEventsSince later ++ d.ruleEventsOf op := by
    rw [ruleEventsSince, hd]
  obtain ⟨hop, hrest⟩ := List.forall_mem_cons.mp hlater.authored
  obtain ⟨havoids, hrestAvoids⟩ := List.forall_mem_cons.mp hlater.avoids
  have hquiet := (hi.since hl hrule hlater).1
  have hrestOff := hlater.off
  rw [hruleEvents] at hquiet hrestOff
  obtain ⟨-, hkept⟩ := hi.since hl hrule
    ⟨hrest, hrestAvoids, fun hm => hrestOff (List.mem_append_left _ hm)⟩
  obtain ⟨hdl, hhas⟩ := hkept d hd
  have hone : ∀ o ∈ [op], o.Authored := List.forall_mem_singleton.mpr hop
  obtain ⟨s, hledger, -, hlast⟩ := ledger_since false hdl hone hhas
    (List.forall_mem_singleton.mpr (.inl havoids))
  rw [show d'.countOf ref = (d'.tallyOf ref).fireCount from rfl, hlast d' hp]
  rcases hledger.fireCount_of_none_own fun o ho =>
    onsets_ne_of_quiet (List.forall_mem_append.mp hquiet).2 ho with hsame | ⟨r, ⟨op', hop', hr⟩, hset⟩
  · exact .inl hsame
  · obtain rfl := List.mem_singleton.mp hop'
    exact .inr ⟨r, hr, hset⟩

theorem Linked.spent_of_setEnabled {k : Handle} {r : Registration Job} {c : Continuation}
    (hl : e.Linked) (hoff : e.setEnabled ref false now = .ok (notice, e')) (hr : e.job? k = some r)
    (hp : r.payload = .continuation c) (hc : c.firing.ref = ref) : e'.UsedUp k := by
  have hgrows := grows_setEnabled hoff
  refine ⟨(hl.issued k r hr).1.trans_le hgrows.next, ?_⟩
  by_contra hpending
  obtain ⟨q, hq⟩ := Option.ne_none_iff_exists'.mp hpending
  rcases hgrows.jobs k q hq with hold | hnew
  · obtain rfl := Option.some.inj (hr.symm.trans hold)
    exact (hl.inert_of_setEnabled hoff).idle k r c hq hp hc
  · exact absurd (hl.issued k r hr).1 (Nat.not_lt.mpr hnew)

/-- A rule that was switched off from outside neither fires nor runs an action until it is switched on,
and only restored records change its count. What it had put off is never taken up, whatever follows. -/
theorem inert_of_reaches {settings : Settings} {ops : List Operation} {notice : Notice}
    (h : Reaches settings ops e) (hoff : e.setEnabled ref false now = .ok (notice, e')) :
    (∀ later, e'.LeavesOff ref later → ∀ x ∈ e'.ruleEventsSince later, ¬x.IsOf ref) ∧
    (∀ op later d d', e'.LeavesOff ref (op :: later) → e'.performAll? later = some d →
      d.perform op = some d' → d'.countOf ref = d.countOf ref ∨
        ∃ r, op.Restores ref r ∧ d'.countOf ref = r.fireCount) ∧
    ∀ later, (∀ op ∈ later, op.Authored) → ∀ k r c, e.job? k = some r →
      r.payload = .continuation c → c.firing.ref = ref → .woke k ∉ e'.ruleEventsSince later := by
  have hl := h.linked
  have hl' := hl.setEnabled hoff
  have hinert := hl.inert_of_setEnabled hoff
  have hrule : e'.HasRule ref (fun _ => True) false := by
    obtain ⟨epoch, rule, ht, -⟩ := setEnabled_eq_ok hoff
    refine ⟨rule, ?_, trivial, nofun⟩
    rw [catalog_of_setEnabled hoff]
    exact (target?_eq_some_iff.mp ht).2
  exact ⟨fun later hlater => (hinert.since hl' hrule hlater).1,
    fun op later d d' hlater hd hp => hinert.countOf hl' hrule hlater hd hp,
    fun later ha k r c hr hp hc => (hl.spent_of_setEnabled hoff hr hp hc).since hl' ha⟩

def lighthouse : Content :=
  .ofRules (.room "lighthouse") [
    { Rule.plain "horn" .enter [⟨"message_room", .empty, 5⟩] with permanent := true },
    .plain "keeper" .enter [⟨"fire_trigger", .ofList [("trigger", .string "horn")], 0⟩]]

def horn : RuleRef := ⟨.room "lighthouse", "horn"⟩

def hooting : List Operation := [.fireRule {} horn {} 0, .load lighthouse 0]

def afterHooting : List Operation :=
  [.restore [⟨"horn", .room "lighthouse", 7, none⟩], .advance 9 {} 10,
    .fireRule {} ⟨.room "lighthouse", "keeper"⟩ {} 3, .fireRule {} horn {} 2]

def keepsOff (ref : RuleRef) : RuleEvent → Bool
  | .switched k true => k != ref
  | _ => true

theorem inert_horn :
    ∃ e notice e', Reaches (.builtin 8) hooting e ∧ e.pendingJobs = 1 ∧
      e.setEnabled horn false 1 = .ok (notice, e') ∧ (onsets (e'.ruleEventsSince afterHooting)).length = 1 ∧
      (∀ x ∈ e'.ruleEventsSince afterHooting, ¬x.IsOf horn) ∧ .woke 1 ∉ e'.ruleEventsSince afterHooting := by
  obtain ⟨e, h, hp⟩ := exists_reaches (.builtin 8) hooting
    (fun e => e.pendingJobs == 1 && e.deferred.get? 1 == some horn &&
      (e.setEnabled horn false 1).toOption.any fun set =>
        (set.2.ruleEventsSince afterHooting).all (keepsOff horn) &&
          (onsets (set.2.ruleEventsSince afterHooting)).length == 1)
    (by simp [hooting, Operation.Authored, lighthouse, Content.Authored.ofRules]) (by decide +kernel)
  simp only [Bool.and_eq_true, beq_iff_eq, Option.any_eq_true] at hp
  obtain ⟨⟨hjobs, hdeferred⟩, ⟨notice, e'⟩, hset, hleaves, hfirings⟩ := hp
  obtain ⟨r, c, hr, hpayload, hc⟩ := h.linked.deferred 1 horn hdeferred
  cases hoff : e.setEnabled horn false 1 with
  | error =>
    rw [hoff] at hset
    cases hset
  | ok set =>
    rw [hoff] at hset
    obtain rfl : set = (notice, e') := Option.some.inj hset
    obtain ⟨hquiet, -, hgone⟩ := inert_of_reaches h hoff
    have hauthored : ∀ op ∈ afterHooting, op.Authored := by
      simp [afterHooting, Operation.Authored]
    have hlater : e'.LeavesOff horn afterHooting := by
      refine ⟨hauthored, by simp [afterHooting, Operation.Avoids, Operation.content?], fun hm => ?_⟩
      simpa [keepsOff] using List.all_eq_true.mp hleaves _ hm
    exact ⟨e, notice, e', h, hjobs, hoff, hfirings, hquiet afterHooting hlater,
      hgone afterHooting hauthored 1 r c hr hpayload hc⟩

end Engine

end WorldTriggers
