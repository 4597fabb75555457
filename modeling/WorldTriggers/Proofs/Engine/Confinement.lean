import WorldTriggers.Proofs.Engine.OperationSteps

namespace WorldTriggers

def Dispatch.Reports (d : Dispatch) (ref : RuleRef) : Prop :=
  ref ∈ d.fired ∨ ∃ enabled, .controlChanged ref.scope ref.rule enabled ∈ d.notices

namespace Engine

variable {p q : RuleRef → Prop} {e mid e' : Engine} {ref : RuleRef} {now : Instant}

structure Confined (p : RuleRef → Prop) (e e' : Engine) : Prop where
  settings : e'.settings = e.settings
  catalog : e'.catalog = e.catalog
  waiting : e'.waiting = e.waiting
  states : ∀ ref, ¬p ref → e'.states.get? ref = e.states.get? ref
  deferred : ∀ ref h, ¬p ref → (e'.deferred.get? h = some ref ↔ e.deferred.get? h = some ref)
  jobs : ∀ h, e'.job? h = e.job? h ∨
    (∀ r, e.job? h = some r → ∃ ref, r.payload.ref? = some ref ∧ p ref) ∧
      ∀ r ref, e'.job? h = some r → r.payload.ref? = some ref → p ref

namespace Confined

theorem refl (p : RuleRef → Prop) (e : Engine) : Confined p e e :=
  ⟨rfl, rfl, rfl, fun _ _ => rfl, fun _ _ _ => .rfl, fun _ => .inl rfl⟩

theorem mono (h : Confined p e e') (hpq : ∀ ref, p ref → q ref) : Confined q e e' := by
  refine { h with states := ?_, deferred := ?_, jobs := fun k => ?_ }
  · exact fun ref hq => h.states ref fun hp => hq (hpq ref hp)
  · exact fun ref k hq => h.deferred ref k fun hp => hq (hpq ref hp)
  · rcases h.jobs k with hsame | ⟨hold, hnew⟩
    · exact .inl hsame
    · right
      constructor
      · intro r hr
        obtain ⟨ref, href, hp⟩ := hold r hr
        exact ⟨ref, href, hpq ref hp⟩
      · exact fun r ref hr href => hpq ref (hnew r ref hr href)

theorem trans (h : Confined p e mid) (h' : Confined p mid e') : Confined p e e' where
  settings := h'.settings.trans h.settings
  catalog := h'.catalog.trans h.catalog
  waiting := h'.waiting.trans h.waiting
  states ref hp := (h'.states ref hp).trans (h.states ref hp)
  deferred ref k hp := (h'.deferred ref k hp).trans (h.deferred ref k hp)
  jobs k := by
    rcases h.jobs k with hsame | ⟨hold, hmid⟩
    · rw [← hsame]
      exact h'.jobs k
    · rcases h'.jobs k with hsame | ⟨-, hnew⟩
      · rw [hsame]
        exact .inr ⟨hold, hmid⟩
      · exact .inr ⟨hold, hnew⟩

theorem job?_of_old (h : Confined p e e') {k : Handle} {r : Registration Job} (hr : e.job? k = some r)
    (hp : ∀ ref, r.payload.ref? = some ref → ¬p ref) : e'.job? k = some r := by
  rcases h.jobs k with hsame | ⟨hold, -⟩
  · rw [hsame, hr]
  · obtain ⟨ref, href, hpr⟩ := hold r hr
    exact absurd hpr (hp ref href)

theorem job?_iff (h : Confined p e e') {k : Handle} {r : Registration Job} (hp : ¬p ref)
    (href : r.payload.ref? = some ref) : e'.job? k = some r ↔ e.job? k = some r := by
  constructor
  · intro hr
    rcases h.jobs k with hsame | ⟨-, hnew⟩
    · rw [← hsame, hr]
    · exact absurd (hnew r ref hr href) hp
  · intro hr
    apply h.job?_of_old hr
    intro k hk
    rw [href] at hk
    exact Option.some.inj hk ▸ hp

end Confined

section Primitives

theorem Linked.ref?_of_timerOf (hl : e.Linked) {h : Handle} {r : Registration Job}
    (ht : e.timerOf ref = some h) (hr : e.job? h = some r) : r.payload.ref? = some ref := by
  obtain ⟨epoch, hp⟩ := (hl.timers ref h ht).2 r hr
  rw [hp]
  rfl

theorem Linked.ref?_of_deferred (hl : e.Linked) {h : Handle} {r : Registration Job}
    (hd : e.deferred.get? h = some ref) (hr : e.job? h = some r) : r.payload.ref? = some ref := by
  obtain ⟨r', c, hr', hp, rfl⟩ := hl.deferred h ref hd
  rw [hr'] at hr
  rw [← Option.some.inj hr, hp]
  rfl

theorem Linked.job?_nextHandle (hl : e.Linked) : e.job? e.schedule.nextHandle = none := by
  by_contra hne
  obtain ⟨r, hr⟩ := Option.ne_none_iff_exists'.mp hne
  exact Nat.lt_irrefl _ (hl.issued _ r hr).1

theorem confined_update (hp : p ref) (e : Engine) (f : RuleState → RuleState) :
    Confined p e { e with states := e.states.update ref f } where
  settings := rfl
  catalog := rfl
  waiting := rfl
  states k hk := by
    rw [RuleStates.get?_update, if_neg]
    rintro rfl
    exact hk hp
  deferred _ _ _ := .rfl
  jobs _ := .inl rfl

theorem Linked.confined_disarmTimer (hl : e.Linked) (hp : p ref) : Confined p e (e.disarmTimer ref) where
  settings := rfl
  catalog := rfl
  waiting := rfl
  states := (confined_update hp e fun s => { s with timer := none }).states
  deferred _ _ _ := .rfl
  jobs h := by
    rw [job?_disarmTimer]
    split
    · rename_i ht
      exact .inr ⟨fun r hr => ⟨ref, hl.ref?_of_timerOf ht hr, hp⟩, fun _ _ hr => nomatch hr⟩
    · exact .inl rfl

theorem Linked.confined_cancelDeferred (hl : e.Linked) (hp : p ref) :
    Confined p e (e.cancelDeferred (· == ref)) where
  settings := rfl
  catalog := rfl
  waiting := rfl
  states _ _ := rfl
  deferred k _ hk := by
    have hne : k ≠ ref := by
      rintro rfl
      exact hk hp
    rw [get?_cancelDeferred, Option.filter_eq_some_iff]
    simp [hne]
  jobs h := by
    rw [job?_cancelDeferred]
    split
    · rename_i hany
      obtain ⟨k, hk, heq⟩ := (Option.any_eq_true _ _).mp hany
      obtain rfl := eq_of_beq heq
      exact .inr ⟨fun r hr => ⟨k, hl.ref?_of_deferred hk hr, hp⟩, fun _ _ hr => nomatch hr⟩
    · exact .inl rfl

theorem Linked.jobs_register (hl : e.Linked) {due : Instant} {interval : Option Span} {payload : Job}
    (hschedule : e'.schedule = (e.schedule.register due interval payload).2)
    (hp : ∀ ref, payload.ref? = some ref → p ref) (h : Handle) : e'.job? h = e.job? h ∨
      (∀ r, e.job? h = some r → ∃ ref, r.payload.ref? = some ref ∧ p ref) ∧
        ∀ r ref, e'.job? h = some r → r.payload.ref? = some ref → p ref := by
  have hjob : e'.job? h =
      if h = e.schedule.nextHandle then some ⟨due, e.schedule.nextTurn, interval, payload⟩
      else e.job? h := by
    rw [job?, hschedule, Schedule.job?_register]
    rfl
  rw [hjob]
  split
  · subst h
    right
    constructor
    · intro r hr
      rw [hl.job?_nextHandle] at hr
      cases hr
    · intro r ref hr href
      cases hr
      exact hp ref href
  · exact .inl rfl

theorem Linked.confined_startTimer (hl : e.Linked) (hp : p ref) (epoch : Nat) (interval : Span)
    (due : Instant) : Confined p e (e.startTimer ref epoch interval due) where
  settings := rfl
  catalog := rfl
  waiting := rfl
  states := (confined_update hp e fun s => { s with timer := some e.schedule.nextHandle }).states
  deferred _ _ _ := .rfl
  jobs := hl.jobs_register rfl fun _ hk => Option.some.inj hk ▸ hp

theorem Linked.confined_armTimer {scope : Scope} {epoch : Nat} {r : Rule} (hl : e.Linked)
    (ht : e.target? ⟨scope, r.id⟩ = some (epoch, r)) (hp : p ⟨scope, r.id⟩) (now : Instant) :
    Confined p e (e.armTimer scope epoch r now) := by
  cases hplan : r.timerPlan? with
  | none =>
    rw [armTimer_of_no_plan hplan]
    exact .refl p e
  | some plan =>
    have htouch : Confined p e (e.touch ⟨scope, r.id⟩) := confined_update hp e id
    rcases armTimer_eq hplan e scope epoch now with ⟨-, he⟩ | ⟨due, -, -, he⟩
    · rwa [he]
    · rw [he]
      exact htouch.trans ((hl.touch (isSome_of_target? ht)).confined_startTimer hp epoch _ due)

theorem notice_of_setEnabled {enabled : Bool} {notice : Notice}
    (h : e.setEnabled ref enabled now = .ok (notice, e')) :
    notice = .controlChanged ref.scope ref.rule enabled := by
  obtain ⟨epoch, r, ht, -⟩ := setEnabled_eq_ok h
  rw [setEnabled_of_target? ht] at h
  exact (congrArg Prod.fst (Except.ok.inj h)).symm

theorem Linked.confined_setEnabled {enabled : Bool} {notice : Notice} (hl : e.Linked)
    (h : e.setEnabled ref enabled now = .ok (notice, e')) (hp : p ref) : Confined p e e' := by
  obtain ⟨epoch, r, ht, rfl⟩ := setEnabled_eq_ok h
  have hr := isSome_of_target? ht
  have hid : (⟨ref.scope, r.id⟩ : RuleRef) = ref :=
    congrArg (RuleRef.mk ref.scope) (Catalog.id_of_rule? (target?_eq_some_iff.mp ht).2)
  have hflag (enabled : Bool) : Confined p e (e.flag ref enabled) := confined_update hp e _
  cases enabled with
  | true =>
    rw [if_pos rfl, switchedOn]
    split
    · have ht' : (e.flag ref true).target? ⟨ref.scope, r.id⟩ = some (epoch, r) := by rwa [hid]
      exact (hflag true).trans ((hl.flag hr true).confined_armTimer ht' (hid ▸ hp) now)
    · exact hflag true
  | false =>
    rw [if_neg (by simp), switchedOff]
    split
    · have hdisarm := (hflag false).trans ((hl.flag hr false).confined_disarmTimer hp)
      exact hdisarm.trans (((hl.flag hr false).disarmTimer hr).confined_cancelDeferred hp)
    · exact (hflag false).trans ((hl.flag hr false).confined_cancelDeferred hp)

theorem Linked.confined_recordFiring {f : Firing} (hl : e.Linked) (hf : e.Installed f) (hp : p f.ref)
    (now : Instant) : Confined p e (e.recordFiring f now) := by
  have hupdate := confined_update hp e (·.recordFiring f.cooldownKey now)
  unfold Engine.recordFiring
  dsimp only
  split
  · exact hupdate.trans ((hl.update (isSome_of_target? hf) rfl).confined_disarmTimer hp)
  · exact hupdate

theorem Linked.confined_scheduleContinuation {c : Continuation} (hl : e.Linked) (hp : p c.firing.ref)
    (due : Instant) : Confined p e (e.scheduleContinuation c due) where
  settings := rfl
  catalog := rfl
  waiting := rfl
  states _ _ := rfl
  deferred k h hk := by
    have hget : (e.scheduleContinuation c due).deferred.get? h =
        if h = e.schedule.nextHandle then some c.firing.ref else e.deferred.get? h :=
      SortedMap.get?_insert ..
    rw [hget]
    split
    · subst h
      constructor
      · intro hc
        exact absurd hp (Option.some.inj hc ▸ hk)
      · intro hd
        obtain ⟨r, -, hr, -⟩ := hl.deferred _ k hd
        rw [hl.job?_nextHandle] at hr
        cases hr
    · rfl
  jobs := hl.jobs_register rfl fun _ hk => Option.some.inj hk ▸ hp

theorem Linked.confined_scheduleExpiry (hl : e.Linked) (p : RuleRef → Prop) (actor : ActorId)
    (effect : String) (stat : Option StatChange) (due : Instant) :
    Confined p e (e.scheduleExpiry actor effect stat due) where
  settings := rfl
  catalog := rfl
  waiting := rfl
  states _ _ := rfl
  deferred _ _ _ := .rfl
  jobs := hl.jobs_register rfl fun _ hk => nomatch hk

end Primitives

end Engine

namespace Run

open Engine

variable {stage : Stage} {run mid run' : Run}

structure Prolongs (run run' : Run) : Prop where
  fired : run.fired <+: run'.fired
  notices : run.notices <+: run'.notices

namespace Prolongs

theorem refl (run : Run) : Prolongs run run := ⟨List.prefix_rfl, List.prefix_rfl⟩

theorem trans (h : Prolongs run mid) (h' : Prolongs mid run') : Prolongs run run' :=
  ⟨h.fired.trans h'.fired, h.notices.trans h'.notices⟩

theorem reports (h : Prolongs run run') {ref : RuleRef} (hr : run.finish.1.Reports ref) :
    run'.finish.1.Reports ref := by
  rcases hr with hfired | ⟨enabled, hnotice⟩
  · exact .inl (h.fired.subset hfired)
  · exact .inr ⟨enabled, h.notices.subset hnotice⟩

end Prolongs

theorem prolongs_enter (run : Run) (f : Firing) : Prolongs run (run.enter f) :=
  ⟨List.prefix_append _ _, List.prefix_rfl⟩

theorem Prolongs.of_note {notices : List Notice} (h : Prolongs (mid.note notices) run')
    (hfired : mid.fired = run.fired) (hnotices : mid.notices = run.notices) : Prolongs run run' where
  fired := hfired ▸ h.fired
  notices := hnotices ▸ (List.prefix_append mid.notices notices).trans h.notices

theorem Leads.prolongs (h : Leads stage run run') : Prolongs run run' := by
  induction h with
  | refused | ended | settled => exact .refl _
  | @fired f run run' hm h ih => exact (prolongs_enter run f).trans ih
  | deferred => exact ⟨List.prefix_rfl, List.prefix_rfl⟩
  | @acted f resumed i a left world notices run mid run' ha hw hleft h hrest ih ihrest =>
    have hfirst : Prolongs run mid := ih.of_note rfl rfl
    exact hfirst.trans ihrest
  | passed h ih => exact ih.of_note rfl rfl
  | switched hs h ih => exact ih.of_note rfl rfl
  | cascaded ht h hrest ih ihrest => exact ih.trans ihrest
  | expires hd h ih => exact ⟨ih.fired, ih.notices⟩

def Begun (run : Run) : Stage → Prop
  | .attempt _ => True
  | .actions f _ _ => f.ref ∈ run.fired
  | .followups f _ => f.ref ∈ run.fired

theorem Leads.confined (h : Leads stage run run') (hl : run.engine.Linked)
    (hf : run.engine.Installed stage.firing) (hbegun : run.Begun stage) :
    Confined run'.finish.1.Reports run.engine run'.engine := by
  -- What a part of the run reports is reported by all that goes on from it, so that the reports of the
  -- whole run bound what each of its parts changes.
  induction h with
  | refused | ended | settled => exact .refl _ _
  | @fired f run run' hm h ih =>
    have hbegun : f.ref ∈ (run.enter f).fired := List.mem_append_right _ (List.mem_singleton_self _)
    have hreports : run'.finish.1.Reports f.ref := h.prolongs.reports (.inl hbegun)
    have hentered := hl.confined_recordFiring hf hreports run.now
    exact hentered.trans (ih (hl.recordFiring hf) (hf.congr hentered.catalog) hbegun)
  | deferred ha hw hd => exact hl.confined_scheduleContinuation (.inl hbegun) _
  | @acted f resumed i a left world notices run mid run' ha hw hleft h hrest ih ihrest =>
    have hsteps : Steps run.now run.engine mid.engine := (h.steps hf).2
    have hmid : f.ref ∈ mid.fired := h.prolongs.fired.subset hbegun
    have hfirst := (ih hl hf hbegun).mono fun ref => hrest.prolongs.reports
    exact hfirst.trans (ihrest (hl.steps hsteps) (hf.congr hsteps.catalog) hmid)
  | passed h ih => exact ih hl hf hbegun
  | @switched f target enabled rest notice engine run run' hs h ih =>
    have hreports : run'.finish.1.Reports target := by
      apply h.prolongs.reports
      rw [notice_of_setEnabled hs]
      exact .inr ⟨enabled, List.mem_append_right _ (List.mem_singleton_self _)⟩
    have hswitched := hl.confined_setEnabled hs hreports
    exact hswitched.trans (ih (hl.setEnabled hs) (hf.congr hswitched.catalog) hbegun)
  | @cascaded f target epoch rule rest run mid run' ht h hrest ih ihrest =>
    have hinstalled := installed_of_target? ht f.context
    have hsteps := (h.steps hinstalled).2
    have hmid : f.ref ∈ mid.fired := h.prolongs.fired.subset hbegun
    have hfirst := (ih hl hinstalled trivial).mono fun ref => hrest.prolongs.reports
    exact hfirst.trans (ihrest (hl.steps hsteps) (hf.congr hsteps.catalog) hmid)
  | @expires f actor effect stat after due rest run run' hd h ih =>
    have hdue : Instant.first ≤ due := (Instant.after?_eq_some_iff.mp hd).2.1
    have hscheduled := hl.confined_scheduleExpiry run'.finish.1.Reports actor effect stat due
    exact hscheduled.trans (ih (hl.scheduleExpiry actor effect stat hdue) hf hbegun)

theorem Offers.prolongs (h : Offers run run') : Prolongs run run' := by
  induction h with
  | refl => exact .refl run
  | tail _ hlast ih =>
    obtain ⟨f, -, hleads⟩ := hlast
    exact ih.trans hleads.prolongs

theorem Offers.confined (h : Offers run run') (hl : run.engine.Linked) :
    Confined run'.finish.1.Reports run.engine run'.engine := by
  induction h with
  | refl => exact .refl _ _
  | tail hinit hlast ih =>
    obtain ⟨f, hf, hleads⟩ := hlast
    have hfirst := ih.mono fun ref => hleads.prolongs.reports
    exact hfirst.trans (hleads.confined (hl.offers hinit) hf trivial)

theorem Offers.eq_of_fired (h : Offers run run') (hfired : run'.fired = run.fired) : run' = run := by
  induction h with
  | refl => rfl
  | @tail mid run' hinit hlast ih =>
    obtain ⟨f, -, hleads⟩ := hlast
    have hinit' : run.fired <+: mid.fired := Offers.prolongs hinit |>.fired
    have hlast' : mid.fired <+: run'.fired := hleads.prolongs.fired
    have hmid : mid.fired = run.fired := by
      rw [hfired] at hlast'
      exact (hinit'.eq_of_length_le hlast'.length_le).symm
    cases hleads with
    | refused => exact ih hmid
    | fired hm h =>
      have hgrown := h.prolongs.fired.length_le
      rw [hfired, ← hmid, enter, List.length_append, List.length_singleton] at hgrown
      omega

end Run

namespace Engine

variable {e e' : Engine} {op : Operation} {w w' : World} {now : Instant} {d : Dispatch}

theorem offers_of_dispatch? (hsound : e.catalog.Sound) (hop : op.scene? = some (w, now))
    (hd : e.dispatch? op = some (d, e', w')) :
    ∃ run, Run.Offers (Run.start e w now) run ∧ (d, e', w') = run.finish := by
  rcases dispatch?_eq hsound hop with ⟨hnone, -⟩ | hsome
  · rw [hd] at hnone
    cases hnone
  · rw [hd] at hsome
    exact ⟨_, offers_attempts _ (installed_of_offered hsound op), Option.some.inj hsome⟩

/-- A dispatch that fires nothing changes nothing, as does one that fails. Any dispatch leaves the rules
that it does not report as they were, with their timers and what they put off, and with them the
catalog, the records that wait and all registrations of no rule. -/
theorem confined_of_reaches {settings : Settings} {ops : List Operation} (h : Reaches settings ops e)
    (hop : op.scene? = some (w, now)) :
    (e.dispatch? op = none → e.perform op = some e) ∧
    ∀ d e' w', e.dispatch? op = some (d, e', w') →
      (d.handled = false → d.notices = [] ∧ e' = e ∧ w' = w) ∧
      (∀ ref, ¬d.Reports ref → e'.states.get? ref = e.states.get? ref ∧
        (∀ k, e'.deferred.get? k = some ref ↔ e.deferred.get? k = some ref) ∧
        ∀ k r, r.payload.ref? = some ref → (e'.job? k = some r ↔ e.job? k = some r)) ∧
      e'.catalog = e.catalog ∧ e'.waiting = e.waiting ∧
      ∀ k r, e.job? k = some r → (∀ ref, r.payload.ref? = some ref → ¬d.Reports ref) →
        e'.job? k = some r := by
  have hsound := h.linked.catalog
  constructor
  · intro hnone
    rcases dispatch?_eq hsound hop with ⟨-, -, hperform⟩ | hsome
    · exact hperform
    · rw [hnone] at hsome
      cases hsome
  · intro d e' w' hd
    obtain ⟨run, hoffers, hrun⟩ := offers_of_dispatch? hsound hop hd
    cases hrun
    have hconfined := hoffers.confined h.linked
    refine ⟨fun hhandled => ?_, fun ref href => ?_, hconfined.catalog, hconfined.waiting,
      fun k r hr => hconfined.job?_of_old hr⟩
    · have hfired : run.fired = [] := by simpa [Dispatch.handled] using hhandled
      have hrun : run = Run.start e w now := hoffers.eq_of_fired hfired
      subst hrun
      exact ⟨rfl, rfl, rfl⟩
    · exact ⟨hconfined.states ref href, fun k => hconfined.deferred ref k href,
        fun k r => hconfined.job?_iff href⟩

def steeple : Content :=
  .ofRules (.room "steeple") [
    { Rule.plain "lamp" .timer [] with timerInterval := some 60 },
    { Rule.plain "clock" .timer [] with timerInterval := some 60 },
    .plain "bell" .enter [⟨"message_room", .empty, 5⟩],
    .plain "incense" .enter [
      ⟨"apply_effect", .ofList [("effect", .string "dazed"), ("duration", .int 30)], 0⟩],
    .plain "verger" .enter [⟨"disable_trigger", .ofList [("trigger", .string "lamp")], 0⟩],
    { Rule.plain "crypt" .enter [] with enabled := false }]

def vesper : List Operation :=
  [.fireRule { actors := .ofList [("ana", { id := "ana", name := "Ana" })] }
      ⟨.room "steeple", "incense"⟩ { actor := some "ana" } 0,
    .fireRule {} ⟨.room "steeple", "bell"⟩ {} 0, .load steeple 0]

theorem confined_vesper :
    ∃ e, Reaches (.builtin 8) vesper e ∧
      (∃ d e' w', e.dispatch? (.fireRule {} ⟨.room "steeple", "verger"⟩ {} 1) = some (d, e', w') ∧
        d.fired = [⟨.room "steeple", "verger"⟩] ∧
        d.notices = [.controlChanged (.room "steeple") "lamp" false] ∧
        e.pendingJobs = 4 ∧ e'.pendingJobs = 3 ∧
        ∀ k ∈ [2, 3, 4], ∃ r, e.job? k = some r ∧ e'.job? k = some r) ∧
      ∃ d e' w', e.dispatch? (.fireRule {} ⟨.room "steeple", "crypt"⟩ {} 1) = some (d, e', w') ∧
        d.handled = false ∧ e' = e := by
  obtain ⟨e, h, hp⟩ := exists_reaches (.builtin 8) vesper
    (fun e => e.pendingJobs == 4 &&
      (e.dispatch? (.fireRule {} ⟨.room "steeple", "verger"⟩ {} 1)).any (fun r =>
        r.1.fired == [⟨.room "steeple", "verger"⟩] &&
        r.1.notices == [.controlChanged (.room "steeple") "lamp" false] && r.2.1.pendingJobs == 3) &&
      (e.dispatch? (.fireRule {} ⟨.room "steeple", "crypt"⟩ {} 1)).any (fun r => !r.1.handled) &&
      [2, 3, 4].all fun k => (e.job? k).any fun r =>
        r.payload.ref? != some ⟨.room "steeple", "verger"⟩ &&
        r.payload.ref? != some ⟨.room "steeple", "lamp"⟩)
    (by simp [vesper, Operation.Authored, steeple, Content.Authored.ofRules]) (by decide +kernel)
  simp only [Bool.and_eq_true, beq_iff_eq, bne_iff_ne, Option.any_eq_true, List.all_eq_true,
    Bool.not_eq_true'] at hp
  obtain ⟨⟨⟨hjobs, ⟨d, e₁, w₁⟩, hd, ⟨hfired, hnotices⟩, hleft⟩,
    ⟨d', e₂, w₂⟩, hd', hhandled⟩, hkept⟩ := hp
  obtain ⟨-, -, -, -, hold⟩ := (confined_of_reaches h rfl).2 d e₁ w₁ hd
  obtain ⟨hquiet, -⟩ := (confined_of_reaches h rfl).2 d' e₂ w₂ hd'
  refine ⟨e, h, ⟨d, e₁, w₁, hd, hfired, hnotices, hjobs, hleft, fun k hk => ?_⟩,
    d', e₂, w₂, hd', hhandled, (hquiet hhandled).2.1⟩
  obtain ⟨r, hr, hverger, hlamp⟩ := hkept k hk
  refine ⟨r, hr, hold k r hr fun ref href hreports => ?_⟩
  rw [href] at hverger hlamp
  rcases hreports with hmem | ⟨enabled, hmem⟩
  · rw [hfired, List.mem_singleton] at hmem
    exact hverger (congrArg some hmem)
  · rw [hnotices, List.mem_singleton] at hmem
    obtain ⟨hscope, hrule, -⟩ := Notice.controlChanged.inj hmem
    cases ref
    cases hscope
    cases hrule
    exact hlamp rfl

end Engine

end WorldTriggers
