import WorldTriggers.Proofs.Engine.OperationTallies

namespace WorldTriggers

def Engine.countOf (e : Engine) (ref : RuleRef) : Nat := (e.states.stateOf ref).fireCount

theorem Rule.fireLimit?_le {r : Rule} {n : Nat} (h : r.fireLimit? = some n) : n ≤ Record.maxCount := by
  unfold fireLimit? at h
  split at h
  · cases h
  · cases h
    exact Nat.min_le_right _ _

def firingsOf (ref : RuleRef) (os : List Onset) : Nat := (os.map Onset.ref).count ref

namespace Ledger

variable {ref : RuleRef} {s s' : RuleState} {os : List Onset}

theorem fireCount_eq (h : Ledger ref (fun _ => False) s os s') :
    s'.fireCount = (fun n => min (n + 1) Record.maxCount)^[firingsOf ref os] s.fireCount := by
  induction h with
  | closed => rfl
  | other ho _ ih => rw [ih, firingsOf, firingsOf, List.map_cons, List.count_cons_of_ne ho]
  | own ho hs _ ih =>
    rw [ih, firingsOf, firingsOf, List.map_cons, ho, List.count_cons_self, Function.iterate_succ_apply]
    rfl
  | record hr => exact hr.elim

theorem lt_of_mem {n : Nat} (h : Ledger ref (fun _ => False) s os s')
    (hlimit : ∀ o ∈ os, o.ref = ref → o.firing.rule.fireLimit? = some n)
    (hm : ref ∈ os.map Onset.ref) : s.fireCount < n := by
  induction h with
  | closed => cases hm
  | @other o os s s' ho _ ih =>
    rcases List.mem_cons.mp hm with heq | hm
    · exact absurd heq.symm ho
    · exact ih (fun o ho => hlimit o (List.mem_cons_of_mem _ ho)) hm
  | @own o os s s' ho hs _ =>
    have hleft := hs.left
    rw [hlimit o List.mem_cons_self ho] at hleft
    simpa [RuleState.isExhausted] using hleft
  | record hr => exact hr.elim

theorem fireCount_le {n : Nat} (hmax : n ≤ Record.maxCount) (h : Ledger ref (fun _ => False) s os s')
    (hlimit : ∀ o ∈ os, o.ref = ref → o.firing.rule.fireLimit? = some n) (hle : s.fireCount ≤ n) :
    s'.fireCount = s.fireCount + firingsOf ref os ∧ s'.fireCount ≤ n := by
  induction h with
  | closed => exact ⟨rfl, hle⟩
  | other ho _ ih =>
    obtain ⟨hcount, hn⟩ := ih (fun o ho => hlimit o (List.mem_cons_of_mem _ ho)) hle
    rw [firingsOf, List.map_cons, List.count_cons_of_ne ho]
    exact ⟨hcount, hn⟩
  | @own o os s s' ho hs h ih =>
    -- The count is below the limit, which is no greater than the greatest count.
    have hlt := lt_of_mem (.own ho hs h) hlimit (by simp [ho])
    have hnext : (s.recordFiring o.firing.cooldownKey o.now).fireCount = s.fireCount + 1 :=
      Nat.min_eq_left (by omega)
    obtain ⟨hcount, hn⟩ := ih (fun o ho => hlimit o (List.mem_cons_of_mem _ ho)) (by omega)
    refine ⟨?_, hn⟩
    rw [hcount, hnext, firingsOf, firingsOf, List.map_cons, ho, List.count_cons_self]
    omega
  | record hr => exact hr.elim

end Ledger

namespace Run

variable {run run' : Run} {os : List Onset}

theorem Fires.countOf (h : Fires run os run') (ref : RuleRef) :
    run'.engine.countOf ref = if ref ∈ os.map Onset.ref then
      min (run.engine.countOf ref + 1) Record.maxCount else run.engine.countOf ref := by
  have hcount : run'.engine.countOf ref = _ := (h.ledger ref).fireCount_eq
  rw [hcount, firingsOf, h.distinct.count]
  split <;> rfl

theorem Fires.lt_limit {ref : RuleRef} {rule : Rule} {n : Nat} (h : Fires run os run')
    (hrule : run.engine.catalog.rule? ref = some rule) (hn : rule.fireLimit? = some n)
    (hm : ref ∈ os.map Onset.ref) : run.engine.countOf ref < n := by
  refine (h.ledger ref).lt_of_mem (fun o ho href => ?_) hm
  have hinstalled := (Engine.target?_eq_some_iff.mp (h.installed o ho).2).2
  rw [show o.firing.ref = ref from href, hrule] at hinstalled
  rw [← Option.some.inj hinstalled, hn]

end Run

namespace Engine

variable {e e' : Engine} {w w' : World} {now : Instant} {notices : List Notice}

theorem fires_next (hl : e.Linked) (h : e.runNext? w now = some (notices, e', w')) :
    ∃ run run', Run.Fires run (onsets (e.nextRuleEvents w now)) run' ∧
      run.engine.catalog = e.catalog ∧ run.engine.states = e.states ∧ run'.engine = e' := by
  obtain ⟨k, r, -, -, ⟨fs, -, hfs, hruleEvents, rfl⟩ | ⟨c, -, hruleEvents, rfl⟩⟩ := next_cases hl h
  · have hfires := fires_attempts (Run.start (e.taken k r now) w now) e.settings.maxDepth hfs
    have hoffered : e.nextRuleEvents w now = Run.attemptsRuleEvents e.settings.maxDepth 0 fs
        (Run.start (e.taken k r now) w now) := by
      rw [hruleEvents, offeredRuleEvents, settings_taken]
    rw [← hoffered] at hfires
    exact ⟨_, _, hfires, catalog_taken .., states_taken .., rfl⟩
  · have hfires := Run.fires_resume (Run.start (e.taken k r now) w now) k c
    rw [← hruleEvents] at hfires
    exact ⟨_, _, hfires, catalog_taken .., states_taken .., rfl⟩

/-- What `advance` comes by, job after job. -/
inductive Advances (now : Instant) : Engine → World → Engine → World → Prop where
  | start (e : Engine) (w : World) : Advances now e w e w
  | next {e mid e' : Engine} {w w' w'' : World} {notices : List Notice} (h : Advances now e w mid w')
      (hnext : mid.runNext? w' now = some (notices, e', w'')) : Advances now e w e' w''

theorem Linked.advances (hl : e.Linked) (h : Advances now e w e' w') : e'.Linked := by
  induction h with
  | start => exact hl
  | next _ hnext ih => exact ih.runNext? hnext

theorem advances_of_advanceFrom {budget : Nat} {told : List Notice} {start : Engine} {ws : World}
    (hs : Advances now start ws e w) (h : advanceFrom budget told e w now = some (notices, e', w')) :
    Advances now start ws e' w' := by
  induction budget generalizing told e w with
  | zero =>
    unfold advanceFrom at h
    split at h
    · cases h
      exact hs
    · cases h
  | succ budget ih =>
    unfold advanceFrom at h
    split at h
    · cases h
      exact hs
    · exact ih (hs.next ‹_›) h

theorem advances_of_advance {budget : Nat} (h : e.advance budget w now = some (notices, e', w')) :
    Advances now e w e' w' := advances_of_advanceFrom (.start e w) h

def Counts (e : Engine) (listed : List RuleRef) (e' : Engine) : Prop :=
  ∀ ref rule, e.catalog.rule? ref = some rule →
    e'.countOf ref =
        (if ref ∈ listed then min (e.countOf ref + 1) (2 ^ 32 - 1) else e.countOf ref) ∧
      ∀ n, rule.fireLimit? = some n → ref ∈ listed → e.countOf ref < n

theorem counts_of_fires {run run' : Run} {os : List Onset} (h : Run.Fires run os run')
    (hcatalog : run.engine.catalog = e.catalog) (hstates : run.engine.states = e.states) :
    e.Counts (os.map Onset.ref) run'.engine := by
  have hcount (ref : RuleRef) : run.engine.countOf ref = e.countOf ref := by
    unfold countOf
    rw [hstates]
  intro ref rule hrule
  rw [← hcount]
  exact ⟨h.countOf ref, fun n hn hm => h.lt_limit (by rw [hcatalog, hrule]) hn hm⟩

theorem scene?_of_dispatch? {op : Operation} {r : Dispatch × Engine × World}
    (h : e.dispatch? op = some r) : ∃ w now, op.scene? = some (w, now) := by
  cases op with
  | fire | handle | fireRule => exact ⟨_, _, rfl⟩
  | load | reload | unload | setEnabled | advance | restore => cases h

theorem counts_of_dispatch? {op : Operation} {d : Dispatch} (hl : e.Linked)
    (h : e.dispatch? op = some (d, e', w')) : e.Counts d.fired e' := by
  obtain ⟨w, now, hop⟩ := scene?_of_dispatch? h
  have hfires := fires_attempts (Run.start e w now) e.settings.maxDepth
    (installed_of_offered hl.catalog op)
  rcases dispatch?_eq hl.catalog hop with ⟨hnone, -⟩ | hsome
  · rw [h] at hnone
    cases hnone
  · rw [h] at hsome
    obtain ⟨rfl, rfl, -⟩ : d = _ ∧ e' = _ ∧ w' = _ := by simpa [Run.finish] using hsome
    dsimp only
    rw [hfires.fired]
    exact counts_of_fires hfires rfl rfl

def Undisturbed (ref : RuleRef) (ops : List Operation) : Prop :=
  ∀ op ∈ ops, op.Avoids ref.scope ∧ ∀ r, ¬op.Restores ref r

theorem limited_since {ref : RuleRef} {rule : Rule} {n : Nat} {later : List Operation}
    (hl : e.Linked) (hrule : e.catalog.rule? ref = some rule) (hn : rule.fireLimit? = some n)
    (hle : e.countOf ref ≤ n) (ha : ∀ op ∈ later, op.Authored) (hlater : Undisturbed ref later) :
    e.countOf ref + firingsOf ref (onsets (e.ruleEventsSince later)) ≤ n ∧
      ∀ e', e.performAll? later = some e' →
        e'.countOf ref = e.countOf ref + firingsOf ref (onsets (e.ruleEventsSince later)) := by
  obtain ⟨s, hledger, hrules, hlast⟩ := ledger_since (p := (· = rule)) false hl ha
    ⟨rule, hrule, rfl, fun h => nomatch h⟩ fun op hop => .inl (hlater op hop).1
  have hnone : Ledger ref (fun _ => False) (e.tallyOf ref) (onsets (e.ruleEventsSince later)) s :=
    hledger.mono fun r ⟨op, hop, hr⟩ => (hlater op hop).2 r hr
  obtain ⟨hcount, hs⟩ := hnone.fireCount_le (Rule.fireLimit?_le hn)
    (fun o ho href => by rw [hrules o ho href, hn]) hle
  refine ⟨hcount ▸ hs, fun e' he' => ?_⟩
  rw [show e'.countOf ref = (e'.tallyOf ref).fireCount from rfl, hlast e' he', hcount]
  rfl

/-- Firings are counted exactly, by every dispatch and by every job on the way of `advance`, and a rule
fires no more often than its limit allows, through any operations that leave its scope and count alone. -/
theorem counting_of_reaches {settings : Settings} {ops : List Operation} (h : Reaches settings ops e) :
    (∀ op d e' w', e.dispatch? op = some (d, e', w') → e.Counts d.fired e') ∧
      (∀ w now mid w', Advances now e w mid w' → ∀ notices e' w'',
        mid.runNext? w' now = some (notices, e', w'') →
          mid.Counts ((onsets (mid.nextRuleEvents w' now)).map Onset.ref) e') ∧
      ∀ ref rule n later, e.catalog.rule? ref = some rule → rule.fireLimit? = some n →
        e.countOf ref ≤ n → (∀ op ∈ later, op.Authored) → Undisturbed ref later →
          e.countOf ref + firingsOf ref (onsets (e.ruleEventsSince later)) ≤ n ∧
            ∀ e', e.performAll? later = some e' →
              e'.countOf ref = e.countOf ref + firingsOf ref (onsets (e.ruleEventsSince later)) := by
  refine ⟨fun op d e' w' hd => counts_of_dispatch? h.linked hd, ?_, ?_⟩
  · intro w now mid w' hadv notices e' w'' hnext
    obtain ⟨run, run', hfires, hcatalog, hstates, rfl⟩ := fires_next (h.linked.advances hadv) hnext
    exact counts_of_fires hfires hcatalog hstates
  · intro ref rule n later hrule hn hle ha hlater
    exact limited_since h.linked hrule hn hle ha hlater

def tolling : Content :=
  .ofRules (.room "cellar") [
    { Rule.plain "bell" .enter [] with maxFires := 2 },
    { Rule.plain "clock" .timer [] with timerInterval := some 60 }]

def bell : RuleRef := ⟨.room "cellar", "bell"⟩

def clock : RuleRef := ⟨.room "cellar", "clock"⟩

theorem counting_tolling :
    ∃ e, Reaches (.builtin 8) [.load tolling 0] e ∧
      (∃ d e' w', e.dispatch? (.fireRule {} bell {} 0) = some (d, e', w') ∧ d.fired = [bell] ∧
        e'.countOf bell = e.countOf bell + 1 ∧ e'.countOf clock = e.countOf clock) ∧
      (∃ notices e' w', e.runNext? {} 60000000000 = some (notices, e', w') ∧
        (onsets (e.nextRuleEvents {} 60000000000)).map Onset.ref = [clock] ∧ e'.countOf clock = 1) ∧
      ∃ e', e.performAll? [.fireRule {} bell {} 2, .fireRule {} bell {} 1, .fireRule {} bell {} 0] =
          some e' ∧
        firingsOf bell (onsets (e.ruleEventsSince
          [.fireRule {} bell {} 2, .fireRule {} bell {} 1, .fireRule {} bell {} 0])) = 2 ∧
        e'.countOf bell = 2 := by
  obtain ⟨e, h, hp⟩ := exists_reaches (.builtin 8) [.load tolling 0]
    (fun e =>
      e.countOf bell == 0 && e.countOf clock == 0 &&
      (e.catalog.rule? bell).any (fun r => r.fireLimit? == some 2) && (e.catalog.rule? clock).isSome &&
      (e.dispatch? (.fireRule {} bell {} 0)).any (fun r => r.1.fired == [bell]) &&
      (e.runNext? {} 60000000000).isSome &&
      (onsets (e.nextRuleEvents {} 60000000000)).map Onset.ref == [clock] &&
      (e.performAll? [.fireRule {} bell {} 2, .fireRule {} bell {} 1, .fireRule {} bell {} 0]).isSome &&
      firingsOf bell (onsets (e.ruleEventsSince
        [.fireRule {} bell {} 2, .fireRule {} bell {} 1, .fireRule {} bell {} 0])) == 2)
    (by simp [Operation.Authored, tolling, Content.Authored.ofRules]) (by decide +kernel)
  simp only [Bool.and_eq_true, beq_iff_eq, Option.any_eq_true, Option.isSome_iff_exists] at hp
  obtain ⟨⟨⟨⟨⟨⟨⟨⟨hbell, hclock⟩, rule, hrule, hlimit⟩, tick, htick⟩, ⟨d, e₁, w₁⟩, hd, hfired⟩,
    ⟨notices, e₂, w₂⟩, hnext⟩, htold⟩, e₃, hall⟩, htwice⟩ := hp
  obtain ⟨hdispatch, hjob, hrun⟩ := counting_of_reaches h
  refine ⟨e, h, ⟨d, e₁, w₁, hd, hfired, ?_, ?_⟩, ⟨notices, e₂, w₂, hnext, htold, ?_⟩,
    e₃, hall, htwice, ?_⟩
  · have hcount := (hdispatch _ _ _ _ hd bell rule hrule).1
    rw [hfired, if_pos (List.mem_singleton_self _), hbell] at hcount
    rw [hcount, hbell]
    rfl
  · have hcount := (hdispatch _ _ _ _ hd clock tick htick).1
    rwa [hfired, if_neg (by decide)] at hcount
  · have hcount := (hjob _ _ _ _ (.start e {}) _ _ _ hnext clock tick htick).1
    rw [htold, if_pos (List.mem_singleton_self _), hclock] at hcount
    rw [hcount]
    rfl
  · have hcount := (hrun bell rule 2
      [.fireRule {} bell {} 2, .fireRule {} bell {} 1, .fireRule {} bell {} 0] hrule hlimit (by omega)
      (by simp [Operation.Authored]) (by
        intro op hop
        simp only [List.mem_cons, List.not_mem_nil, or_false] at hop
        rcases hop with rfl | rfl | rfl <;>
          exact ⟨Operation.avoids_of_scene? rfl _, Operation.not_restores_of_scene? rfl _⟩)).2 e₃ hall
    rw [hcount, hbell, htwice]

end Engine

end WorldTriggers
