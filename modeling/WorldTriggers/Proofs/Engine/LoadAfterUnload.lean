import WorldTriggers.Proofs.Engine.Draining
import WorldTriggers.Proofs.Engine.Removal

namespace WorldTriggers

/-- How far on the numbers of an engine are from those of a new one. -/
structure Renumbering where
  handles : Nat
  turns : Nat
  epoch : Nat

namespace Renumbering

def state (n : Renumbering) (s : RuleState) : RuleState :=
  { s with timer := s.timer.map (· + n.handles) }

def job (n : Renumbering) : Job → Job
  | .ruleTimer ref _ => .ruleTimer ref n.epoch
  | other => other

def registration (n : Renumbering) (r : Registration Job) : Registration Job :=
  { r with turn := r.turn + n.turns, payload := n.job r.payload }

end Renumbering

namespace Engine

variable {n : Renumbering} {e e' f : Engine} {scope : Scope} {ref : RuleRef} {now : Instant}
  {c : Content} {op : Operation} {ds : List RuleEvent} {settings : Settings} {ops later : List Operation}

structure Mirrors (n : Renumbering) (scope : Scope) (e f : Engine) : Prop where
  nextHandle : e.schedule.nextHandle = f.schedule.nextHandle + n.handles
  nextTurn : e.schedule.nextTurn = f.schedule.nextTurn + n.turns
  catalog : e.catalog.get? scope = (f.catalog.get? scope).map fun i => { i with epoch := n.epoch }
  states : ∀ ref, ref.scope = scope → e.states.get? ref = (f.states.get? ref).map n.state
  deferred : ∀ ref h, ref.scope = scope → (e.deferred.get? h = some ref ↔
    ∃ k, f.deferred.get? k = some ref ∧ h = k + n.handles)
  jobs : ∀ ref h r, ref.scope = scope → r.payload.ref? = some ref → (e.job? h = some r ↔
    ∃ k q, f.job? k = some q ∧ h = k + n.handles ∧ r = n.registration q)

namespace Mirrors

theorem stateOf (h : Mirrors n scope e f) (hs : ref.scope = scope) :
    e.states.stateOf ref = n.state (f.states.stateOf ref) := by
  unfold RuleStates.stateOf
  rw [h.states ref hs]
  cases f.states.get? ref <;> rfl

theorem timerOf (h : Mirrors n scope e f) (hs : ref.scope = scope) :
    e.timerOf ref = (f.timerOf ref).map (· + n.handles) := by
  rw [Engine.timerOf, h.stateOf hs]
  rfl

theorem states_update (h : Mirrors n scope e f) (hs : ref.scope = scope)
    {g g' : RuleState → RuleState} (hg : ∀ s, g (n.state s) = n.state (g' s)) (k : RuleRef)
    (hk : k.scope = scope) : (e.states.update ref g).get? k =
      ((f.states.update ref g').get? k).map n.state := by
  rw [RuleStates.get?_update, RuleStates.get?_update]
  split
  · rw [h.stateOf hs, hg]
    rfl
  · exact h.states k hk

theorem touch (h : Mirrors n scope e f) (hs : ref.scope = scope) :
    Mirrors n scope (e.touch ref) (f.touch ref) :=
  { h with states := h.states_update hs fun _ => rfl }

theorem jobs_startTimer (h : Mirrors n scope e f) (epoch : Nat) (interval : Span) (due : Instant)
    {k : RuleRef} (hk : k.scope = scope) {j : Handle} {r : Registration Job}
    (hr : r.payload.ref? = some k) : (e.startTimer ref n.epoch interval due).job? j = some r ↔
      ∃ i q, (f.startTimer ref epoch interval due).job? i = some q ∧ j = i + n.handles ∧
        r = n.registration q := by
  let every : Option Span := if 0 < interval then some interval else none
  have hjob (j : Handle) : (e.startTimer ref n.epoch interval due).job? j =
      if j = e.schedule.nextHandle then some ⟨due, e.schedule.nextTurn, every, .ruleTimer ref n.epoch⟩
      else e.job? j := Schedule.job?_register ..
  have hjob' (j : Handle) : (f.startTimer ref epoch interval due).job? j =
      if j = f.schedule.nextHandle then some ⟨due, f.schedule.nextTurn, every, .ruleTimer ref epoch⟩
      else f.job? j := Schedule.job?_register ..
  have hnew : (⟨due, e.schedule.nextTurn, every, .ruleTimer ref n.epoch⟩ : Registration Job) =
      n.registration ⟨due, f.schedule.nextTurn, every, .ruleTimer ref epoch⟩ := by
    rw [h.nextTurn]
    rfl
  have hnext (i : Handle) : i + n.handles = e.schedule.nextHandle ↔ i = f.schedule.nextHandle := by
    rw [h.nextHandle]
    exact Nat.add_right_cancel_iff
  rw [hjob, hnew]
  constructor
  · intro hj
    split at hj
    · rename_i heq
      subst heq
      exact ⟨f.schedule.nextHandle, _, (hjob' _).trans (if_pos rfl), h.nextHandle,
        (Option.some.inj hj).symm⟩
    · rename_i hne
      obtain ⟨i, q, hq, rfl, rfl⟩ := (h.jobs k j r hk hr).mp hj
      refine ⟨i, q, ?_, rfl, rfl⟩
      rw [hjob', if_neg fun hi => hne ((hnext i).mpr hi), hq]
  · rintro ⟨i, q, hq, rfl, rfl⟩
    rw [hjob'] at hq
    simp only [hnext]
    split at hq
    · rw [if_pos ‹_›, Option.some.inj hq]
    · rw [if_neg ‹_›]
      exact (h.jobs k _ _ hk hr).mpr ⟨i, q, hq, rfl, rfl⟩

theorem startTimer (h : Mirrors n scope e f) (hs : ref.scope = scope) (epoch : Nat) (interval : Span)
    (due : Instant) : Mirrors n scope (e.startTimer ref n.epoch interval due)
      (f.startTimer ref epoch interval due) := by
  refine { h with nextHandle := ?_, nextTurn := ?_, states := ?_, jobs := ?_ }
  · exact (congrArg (· + 1) h.nextHandle).trans (Nat.add_right_comm ..)
  · exact (congrArg (· + 1) h.nextTurn).trans (Nat.add_right_comm ..)
  · refine h.states_update hs fun s => ?_
    rw [h.nextHandle]
    rfl
  · exact fun _ _ _ hk hr => h.jobs_startTimer epoch interval due hk hr

theorem isPending_timerOf (h : Mirrors n scope e f) (hl : e.Linked) (hl' : f.Linked)
    (hs : ref.scope = scope) :
    (e.timerOf ref).any e.schedule.isPending = (f.timerOf ref).any f.schedule.isPending := by
  rw [h.timerOf hs]
  cases ht : f.timerOf ref with
  | none => rfl
  | some k =>
    have ht' : e.timerOf ref = some (k + n.handles) := by rw [h.timerOf hs, ht, Option.map_some]
    rw [Option.map_some, Option.any_some, Option.any_some, Bool.eq_iff_iff]
    simp only [Schedule.isPending_eq, Option.isSome_iff_exists]
    constructor
    · rintro ⟨r, hr⟩
      obtain ⟨i, q, hq, hi, -⟩ := (h.jobs ref _ r hs (hl.ref?_of_timerOf ht' hr)).mp hr
      obtain rfl : k = i := Nat.add_right_cancel hi
      exact ⟨q, hq⟩
    · rintro ⟨q, hq⟩
      obtain ⟨epoch, hp⟩ := (hl'.timers ref k ht).2 q hq
      have href : (n.registration q).payload.ref? = some ref := by
        rw [Renumbering.registration, hp]
        rfl
      exact ⟨_, (h.jobs ref _ _ hs href).mpr ⟨k, q, hq, rfl, rfl⟩⟩

theorem lacksTimer_iff (h : Mirrors n scope e f) (hl : e.Linked) (hl' : f.Linked)
    (hs : ref.scope = scope) (r : Rule) : e.lacksTimer ref r ↔ f.lacksTimer ref r := by
  unfold lacksTimer
  rw [h.isPending_timerOf hl hl' hs, h.stateOf hs]
  rfl

theorem armTimer {epoch : Nat} {r : Rule} (h : Mirrors n scope e f) (hl : e.Linked) (hl' : f.Linked)
    (ht : e.target? ⟨scope, r.id⟩ = some (n.epoch, r)) (ht' : f.target? ⟨scope, r.id⟩ = some (epoch, r))
    (now : Instant) : Mirrors n scope (e.armTimer scope n.epoch r now)
      (f.armTimer scope epoch r now) := by
  cases hplan : r.timerPlan? with
  | none => rwa [armTimer_of_no_plan hplan, armTimer_of_no_plan hplan]
  | some plan =>
    have htouch : Mirrors n scope (e.touch ⟨scope, r.id⟩) (f.touch ⟨scope, r.id⟩) := h.touch rfl
    have hlacks : (e.touch ⟨scope, r.id⟩).lacksTimer ⟨scope, r.id⟩ r ↔
        (f.touch ⟨scope, r.id⟩).lacksTimer ⟨scope, r.id⟩ r :=
      htouch.lacksTimer_iff (hl.touch (isSome_of_target? ht)) (hl'.touch (isSome_of_target? ht')) rfl r
    -- A timer starts in one engine just where it starts in the other.
    rcases armTimer_eq hplan e scope n.epoch now with ⟨hstays, he⟩ | ⟨due, hlacks₁, hdue, he⟩ <;>
      rcases armTimer_eq hplan f scope epoch now with ⟨hstays', hf⟩ | ⟨due', hlacks₂, hdue', hf⟩ <;>
      rw [he, hf]
    · exact htouch
    · rcases hstays with hstays | hstays
      · exact absurd (hlacks.mpr hlacks₂) hstays
      · rw [hdue'] at hstays
        cases hstays
    · rcases hstays' with hstays' | hstays'
      · exact absurd (hlacks.mp hlacks₁) hstays'
      · rw [hdue] at hstays'
        cases hstays'
    · obtain rfl := Option.some.inj (hdue.symm.trans hdue')
      exact htouch.startTimer rfl epoch plan.interval due

theorem armEach {i : Installation} {ls : List LoadedRule} (h : Mirrors n scope e f) (hl : e.Linked)
    (hl' : f.Linked) (hi : f.catalog.get? scope = some i) (hls : ∀ l ∈ ls, l ∈ i.rules) (now : Instant) :
    Mirrors n scope (e.armEach scope n.epoch now ls) (f.armEach scope i.epoch now ls) := by
  induction ls generalizing e f with
  | nil => exact h
  | cons l rest ih =>
    obtain ⟨hmem, hrest⟩ := List.forall_mem_cons.mp hls
    have hi' : e.catalog.get? scope = some { i with epoch := n.epoch } := by
      rw [h.catalog, hi, Option.map_some]
    have ht : e.target? ⟨scope, l.rule.id⟩ = some (n.epoch, l.rule) := by
      rw [target?_eq_some_iff, Catalog.epoch?, hi']
      exact ⟨rfl, hl.catalog.rule?_of_mem hi' hmem⟩
    have ht' : f.target? ⟨scope, l.rule.id⟩ = some (i.epoch, l.rule) := by
      rw [target?_eq_some_iff, Catalog.epoch?, hi]
      exact ⟨rfl, hl'.catalog.rule?_of_mem hi hmem⟩
    refine ih (h.armTimer hl hl' ht ht' now) (hl.armTimer ht now) (hl'.armTimer ht' now) ?_ hrest
    rwa [catalog_armTimer]

end Mirrors

section Load

theorem load_of_not_contains (hc : e.catalog.contains c.scope = false) (now : Instant) :
    e.load c now = e.install c [] now := by
  rw [load, if_neg (by simp [hc])]

theorem install_of_none_waiting {carried : List (RuleRef × RuleState)}
    (hw : e.waitingFor c.scope = []) (now : Instant) : (e.install c carried now).2 =
      (e.placed c carried).armEach c.scope (e.catalog.lastEpoch + 1) now
        (Installation.boundTo ⟨e.catalog.lastEpoch + 1, c.rules.map LoadedRule.ofRule⟩ .timer) := by
  rw [install_eq, hw]
  exact armTimers_eq (get?_placed e c carried) _ now

theorem report_of_none_waiting (hw : e.waitingFor c.scope = []) (hw' : f.waitingFor c.scope = [])
    (hsettings : e.settings = f.settings) (now : Instant) :
    (e.install c [] now).1 = (f.install c [] now).1 := by
  unfold waitingFor at hw hw'
  unfold install
  simp only [hw, hw', hsettings, applyRecords]

theorem Linked.mirrors_load (hl : e.Linked) (hc : e.catalog.contains c.scope = false)
    (hw : e.waitingFor c.scope = []) (hpos : 0 < e.schedule.nextHandle) (hrules : Content.Sound c.rules)
    (now : Instant) :
    (e.load c now).1 = ((ofSettings e.settings).load c now).1 ∧
      ∃ n, Mirrors n c.scope (e.load c now).2 ((ofSettings e.settings).load c now).2 := by
  obtain ⟨k, hk⟩ : ∃ k, e.schedule.nextHandle = 1 + k := Nat.exists_eq_add_of_le hpos
  have hvacant := hl.vacant hc
  have hl' := linked_ofSettings e.settings
  have hw' : (ofSettings e.settings).waitingFor c.scope = [] := rfl
  rw [load_of_not_contains hc, load_of_not_contains rfl]
  refine ⟨report_of_none_waiting hw hw' rfl now, ⟨k, e.schedule.nextTurn, e.catalog.lastEpoch + 1⟩, ?_⟩
  rw [install_of_none_waiting hw, install_of_none_waiting hw']
  -- Neither engine has a state or a job of the scope before its timers are armed.
  have hplaced : Mirrors ⟨k, e.schedule.nextTurn, e.catalog.lastEpoch + 1⟩ c.scope (e.placed c [])
      ((ofSettings e.settings).placed c []) := by
    refine ⟨hk, (Nat.zero_add _).symm, ?_, fun ref hs => ?_, fun ref h hs => ?_, fun ref h r hs hr => ?_⟩
    · rw [get?_placed, get?_placed]
      rfl
    · exact hvacant.states ref hs
    · exact ⟨fun hd => absurd hd (hvacant.deferred ref h hs), by rintro ⟨_, hd, -⟩; cases hd⟩
    · exact ⟨fun hj => absurd hr (hvacant.jobs ref h r hs hj), by rintro ⟨_, _, hj, -⟩; cases hj⟩
  exact hplaced.armEach (hl.placed hc hrules (carries_nil c))
    (hl'.placed rfl hrules (carries_nil c)) (get?_placed ..)
    (fun l hl => (List.mem_filter.mp hl).1) now

end Load

section Handles

theorem nextHandle_applyRecord (e : Engine) (r : Record) :
    (e.applyRecord r).2.schedule.nextHandle = e.schedule.nextHandle := by
  rcases applyRecord_cases e r with ⟨_, h⟩ | ⟨_, _, _, ⟨_, h⟩ | ⟨_, h⟩⟩
  · rw [h]
  · rw [h, nextHandle_disarmTimer]
  · rw [h]

theorem nextHandle_le_install {carried : List (RuleRef × RuleState)} (hrules : Content.Sound c.rules)
    (hsound : e.catalog.Sound) :
    e.schedule.nextHandle ≤ (e.install c carried now).2.schedule.nextHandle := by
  refine install_induct (motive := fun d => e.schedule.nextHandle ≤ d.schedule.nextHandle) hrules hsound
    le_rfl (fun d r _ hd => ?_) fun d r epoch _ hd => hd.trans (grows_armTimer ..).next
  rwa [nextHandle_applyRecord]

theorem OperationStep.nextHandle_le (hl : e.Linked) (h : OperationStep op e ds e') :
    e.schedule.nextHandle ≤ e'.schedule.nextHandle := by
  cases h with
  | loaded hop ht hrules hc => exact nextHandle_le_install hrules hl.catalog
  | replaced hop ht hrules => exact nextHandle_le_install hrules (hl.detach _).catalog
  | removed hop hc => exact le_rfl
  | switched ht h => exact (grows_setEnabled h).next
  | offered ht w hfs => exact (steps_attempts hfs _ w _).grows.next
  | popped => rw [schedule_taken, Schedule.nextHandle_rearm]
  | @woken k r c now ht w hr hdue hp =>
    have hgrows := (hl.steps_resume hr hp w now).grows.next
    rwa [schedule_taken, Schedule.nextHandle_rearm] at hgrows
  | restored hop hr =>
    unfold restoreOne
    split
    · rw [nextHandle_applyRecord]
    · exact le_rfl

theorem Reaches.nextHandle_pos (h : Reaches settings ops e) : 0 < e.schedule.nextHandle :=
  h.induct_operationSteps (motive := fun _ d => 0 < d.schedule.nextHandle) Nat.one_pos
    fun _ _ _ _ _ _ hl ht hd => hd.trans_le (ht.nextHandle_le hl)

end Handles

theorem Reaches.performAll? (h : Reaches settings ops e) (ha : ∀ op ∈ later, op.Authored)
    (hp : e.performAll? later = some e') : Reaches settings (later ++ ops) e' := by
  induction later generalizing e' with
  | nil =>
    cases hp
    exact h
  | cons op later ih =>
    obtain ⟨hop, hlater⟩ := List.forall_mem_cons.mp ha
    obtain ⟨mid, hmid, hp⟩ := Option.bind_eq_some_iff.mp hp
    exact .next (ih hlater hmid) hop hp

/-- To unload a scope leaves nothing of it, and all the rest as it was. Nothing is done in the scope
until it is loaded again, and then it comes out as if it had never been loaded, unless records for it
were restored in the meantime. -/
theorem unloading_of_reaches (h : Reaches settings ops e) (hc : e.catalog.contains scope = true) :
    ∃ e', e.unload scope = (true, e') ∧ e'.Vacant scope ∧ Spares scope e e' ∧
      ∀ later, (∀ op ∈ later, op.Authored) →
        (∀ op ∈ later, ∀ c, op.content? = some c → c.scope ≠ scope) →
        (∀ x ∈ e'.ruleEventsSince later, x.scope? ≠ some scope) ∧
        ((∀ op ∈ later, ∀ ref r, op.Restores ref r → ref.scope ≠ scope) →
          ∀ d, e'.performAll? later = some d → ∀ c now, c.Authored → c.scope = scope →
            (d.load c now).1 = ((ofSettings settings).load c now).1 ∧
            ∃ n, Mirrors n scope (d.load c now).2 ((ofSettings settings).load c now).2) := by
  have hl := h.linked
  have hunload : e.unload scope = (true, e.detach scope) := by rw [unload, if_pos hc]
  have hdetached := hl.detach scope
  have hgone := not_contains_detach e scope
  refine ⟨e.detach scope, hunload, hdetached.vacant hgone, hl.spares_detach scope,
    fun later ha hlater => ?_⟩
  obtain ⟨e', hvacant, hidle, hwaiting, hlast⟩ := hdetached.idle_since hgone ha hlater
  refine ⟨hidle, fun hrestores d hd c now hauthored hs => ?_⟩
  obtain rfl := hlast d hd
  subst hs
  have hperform : e.perform (.unload c.scope) = some (e.detach c.scope) := by
    rw [perform, hunload]
  have hunloaded : Reaches settings (.unload c.scope :: ops) (e.detach c.scope) :=
    .next h trivial hperform
  have hreached : Reaches settings (later ++ .unload c.scope :: ops) d := hunloaded.performAll? ha hd
  have hnone : d.waitingFor c.scope = [] := by
    refine List.eq_nil_iff_forall_not_mem.mpr fun r hr => ?_
    obtain ⟨hw, hs⟩ := hreached.linked.mem_waitingFor_iff.mp hr
    rcases hwaiting r.ref r hw with ⟨op, hop, hrestored⟩ | hold
    · exact hrestores op hop r.ref r hrestored hs
    · -- A record that waited before would have been for a scope that was not loaded.
      rw [← hs, (hl.waiting r.ref r hold).2] at hc
      cases hc
  obtain ⟨hreport, hmirrors⟩ := hreached.linked.mirrors_load hvacant hnone hreached.nextHandle_pos
    hauthored.sound now
  rw [hreached.settings] at hreport hmirrors
  exact ⟨hreport, hmirrors⟩

def mill : Content :=
  .ofRules (.room "mill") [
    { Rule.plain "wheel" .timer [] with timerInterval := some 60 },
    .plain "miller" .enter [⟨"message_room", .empty, 5⟩],
    .plain "dust" .enter [
      ⟨"apply_effect", .ofList [("effect", .string "dazed"), ("duration", .int 30)], 0⟩]]

def forge : Content :=
  .ofRules (.room "forge") [{ Rule.plain "hammer" .timer [] with timerInterval := some 60 }]

def milling : List Operation :=
  [.fireRule { actors := .ofList [("ana", { id := "ana", name := "Ana" })] }
      ⟨.room "mill", "dust"⟩ { actor := some "ana" } 0,
    .fireRule {} ⟨.room "mill", "miller"⟩ {} 0, .load forge 0, .load mill 0]

def afterMilling : List Operation :=
  [.fireRule {} ⟨.room "mill", "miller"⟩ {} 70, .advance 9 {} 70]

theorem unloading_mill :
    ∃ e e' d, Reaches (.builtin 8) milling e ∧ e.pendingJobs = 4 ∧
      e.unload (.room "mill") = (true, e') ∧ e'.Vacant (.room "mill") ∧ e'.pendingJobs = 2 ∧
      e'.performAll? afterMilling = some d ∧
      (∀ x ∈ e'.ruleEventsSince afterMilling, x.scope? ≠ some (.room "mill")) ∧
      ∃ n, Mirrors n (.room "mill") (d.load mill 80).2 ((ofSettings (.builtin 8)).load mill 80).2 := by
  obtain ⟨e, h, hp⟩ := exists_reaches (.builtin 8) milling
    (fun e => e.catalog.contains (.room "mill") && e.pendingJobs == 4 &&
      (e.unload (.room "mill")).2.pendingJobs == 2 &&
      ((e.unload (.room "mill")).2.performAll? afterMilling).isSome)
    (by simp [milling, Operation.Authored, mill, forge, Content.Authored.ofRules]) (by decide +kernel)
  simp only [Bool.and_eq_true, beq_iff_eq, Option.isSome_iff_exists] at hp
  obtain ⟨⟨⟨hc, hjobs⟩, hleft⟩, d, hd⟩ := hp
  obtain ⟨e', hunload, hvacant, -, hlater⟩ := unloading_of_reaches h hc
  rw [hunload] at hleft hd
  obtain ⟨hidle, hafresh⟩ := hlater afterMilling (by simp [afterMilling, Operation.Authored])
    (by simp [afterMilling, Operation.content?])
  obtain ⟨-, hmirrors⟩ := hafresh (by simp [afterMilling, Operation.Restores]) d hd mill 80
    (.ofRules ..) (by decide +kernel)
  exact ⟨e, e', d, h, hjobs, hunload, hvacant, hleft, hd, hidle, hmirrors⟩

end Engine

end WorldTriggers
