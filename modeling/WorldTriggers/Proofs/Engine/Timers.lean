import WorldTriggers.Proofs.Engine.TimersRestored

namespace WorldTriggers

/-- What an operation must not do to a rule for its timer to be kept. -/
structure Operation.Spares (op : Operation) (before after : Engine) (ref : RuleRef) : Prop where
  recurs : after.Recurs ref
  starts : ∀ now, op.time? = some now → after.Starts ref now
  returns : ∀ budget world now, op = .advance budget world now → after.Returns ref now
  givesFiringsBack : ∀ records, op = .restore records → ¬before.GivesFiringsBack records ref

namespace Engine

variable {e e' : Engine} {ref : RuleRef} {op : Operation}

theorem TimerKept.offers {w : World} {now : Instant} {run : Run} (hl : e.Linked)
    (hk : e.TimerKept ref) (h : Run.Offers (Run.start e w now) run)
    (hstarts : run.engine.Starts ref now) : run.engine.TimerKept ref :=
  hk.steps hl (hstarts.congr (by rw [h.steps.2.catalog]; rfl)) h.steps.2

theorem TimerKept.advance {w w' : World} {now : Instant} {budget : Nat} {notices : List Notice}
    (hl : e.Linked) (hk : e.TimerKept ref) (h : e.advance budget w now = some (notices, e', w'))
    (hstarts : e'.Starts ref now) (hreturns : e'.Returns ref now) (hrecurs : e'.Recurs ref) :
    e'.TimerKept ref := by
  -- The rules do not change, so that what is known of their timers in the end holds at every job.
  have hcat : e'.catalog = e.catalog :=
    (advance_induct (motive := fun d => d.Linked ∧ d.catalog = e.catalog)
      (fun d d' _ _ _ ⟨hl', hc⟩ hrun => by
        obtain ⟨k, r, -, -, hs⟩ := runNext?_steps hl' hrun
        exact ⟨hl'.runNext? hrun, by rw [hs.catalog, catalog_taken, hc]⟩) h ⟨hl, rfl⟩).2
  refine (advance_induct
    (motive := fun d => d.Linked ∧ d.TimerKept ref ∧ d.catalog = e'.catalog) ?_ h
    ⟨hl, hk, hcat.symm⟩).2.1
  rintro d d' _ _ _ ⟨hl', hk', hc⟩ hrun
  obtain ⟨hkept, hcat'⟩ := hk'.runNext? hl' (hstarts.congr (by rw [hc]))
    (hreturns.congr (by rw [hc])) (hrecurs.congr (by rw [hc])) hrun
  exact ⟨hl'.runNext? hrun, hkept, hcat'.trans hc⟩

theorem TimerKept.perform (hl : e.Linked) (hv : e.Live) (hk : e.TimerKept ref) (ha : op.Authored)
    (hp : e.perform op = some e') (hs : op.Spares e e' ref) : e'.TimerKept ref := by
  cases performs_of_perform hl.catalog hp with
  | unchanged => exact hk
  | loaded c now => exact hk.load hl ha.sound (hs.starts now rfl)
  | reloaded c now => exact hk.reload hl ha.sound (hs.starts now rfl)
  | unloaded scope => exact hk.detach hl scope
  | switched h =>
    have hcat := catalog_of_setEnabled h
    exact hk.setEnabled hl ((hs.starts _ rfl).congr (by rw [hcat])) h
  | offered ht h => exact hk.offers hl h (hs.starts _ ht)
  | advanced h =>
    exact hk.advance hl h (hs.starts _ rfl) (hs.returns _ _ _ rfl) hs.recurs
  | restored records => exact (hk.restore_iff hl hv records).mpr (hs.givesFiringsBack records rfl)

theorem timerKept_of_spares {settings : Settings} {ops : List Operation}
    (h : Reaches settings ops e)
    (hspares : ∀ op rest before after, op :: rest <:+ ops → Reaches settings rest before →
      before.perform op = some after → op.Spares before after ref) : e.TimerKept ref := by
  induction h with
  | start =>
    refine timerKept_of_none rfl ?_
    rintro ⟨rule, hr, -⟩
    cases hr
  | next h ha hp ih =>
    refine TimerKept.perform h.linked h.live (ih ?_) ha hp (hspares _ _ _ _ List.suffix_rfl h hp)
    intro op rest before after hsuffix
    exact hspares op rest before after (hsuffix.trans (List.suffix_cons _ _))

/-- As long as its interval does not round to nothing, its due times are within bounds and no restore
gives it firings back, a rule keeps its timer. A rule that has kept its timer loses it in a restore just
when that gives it firings back, and when the timer comes up just when its interval does round to
nothing. -/
theorem timers_kept {settings : Settings} {ops : List Operation} (h : Reaches settings ops e)
    (ref : RuleRef) :
    ((∀ op rest before after, op :: rest <:+ ops → Reaches settings rest before →
        before.perform op = some after → op.Spares before after ref) → e.TimerKept ref) ∧
      (e.TimerKept ref →
        (∀ records, (e.restore records).2.TimerKept ref ↔ ¬e.GivesFiringsBack records ref) ∧
        ∀ k r epoch now, e.job? k = some r → r.payload = .ruleTimer ref epoch → r.due ≤ now →
          e.Returns ref now → ((e.taken k r now).TimerKept ref ↔ e.Recurs ref)) :=
  ⟨timerKept_of_spares h, fun hk => ⟨hk.restore_iff h.linked h.live,
    fun _ _ _ _ hr hp hdue hreturns => hk.taken_iff h.linked hr hp hdue hreturns⟩⟩

def dripping (interval delay : Float) : Content :=
  .ofRules (.room "cellar") [
    { Rule.plain "drip" .timer [] with timerInterval := some interval, timerInitialDelay := delay }]

def drip : RuleRef := ⟨.room "cellar", "drip"⟩

theorem spares_dripping {op : Operation} {rest : List Operation} {before after : Engine}
    (hsuffix : op :: rest <:+ [.advance 1 {} 10000000000, .load (dripping 60 10) 0])
    (h : Reaches (.builtin 8) rest before) (hp : before.perform op = some after) :
    op.Spares before after drip := by
  have hafter : after? (.builtin 8) (op :: rest) = some after := by
    rw [after?, (reaches_iff.mp h).2]
    exact hp
  have hplans (ops : List Operation) (he : after? (.builtin 8) ops = some after)
      (htest : (after? (.builtin 8) ops).all fun e => decide (e.Recurs drip ∧
        e.Starts drip 0 ∧ e.Starts drip 10000000000 ∧ e.Returns drip 10000000000)) :=
    of_decide_eq_true ((Option.all_eq_true _ _).mp htest after he)
  rcases List.suffix_cons_iff.mp hsuffix with heq | hsuffix
  · obtain ⟨rfl, rfl⟩ := List.cons.inj heq
    obtain ⟨hrecurs, -, hstarts, hreturns⟩ := hplans _ hafter (by decide +kernel)
    refine ⟨hrecurs, ?_, ?_, ?_⟩
    · rintro _ ⟨⟩
      exact hstarts
    · rintro _ _ _ ⟨⟩
      exact hreturns
    · intro records hop
      cases hop
  · rcases List.suffix_cons_iff.mp hsuffix with heq | hnil
    · obtain ⟨rfl, rfl⟩ := List.cons.inj heq
      obtain ⟨hrecurs, hstarts, -⟩ := hplans _ hafter (by decide +kernel)
      refine ⟨hrecurs, ?_, ?_, ?_⟩
      · rintro _ ⟨⟩
        exact hstarts
      · intro budget world now hop
        cases hop
      · intro records hop
        cases hop
    · simp at hnil

theorem timers_kept_dripping :
    ∃ e, Reaches (.builtin 8) [.advance 1 {} 10000000000, .load (dripping 60 10) 0] e ∧
      e.WantsTimer drip ∧ e.TimerKept drip ∧
      ∀ records, (e.restore records).2.TimerKept drip ↔ ¬e.GivesFiringsBack records drip := by
  obtain ⟨e, h, hp⟩ := exists_reaches (.builtin 8)
    [.advance 1 {} 10000000000, .load (dripping 60 10) 0] (fun e => decide (e.WantsTimer drip))
    (by simp [Operation.Authored, dripping, Content.Authored.ofRules]) (by decide +kernel)
  obtain ⟨hkept, hexact⟩ := timers_kept h drip
  have hk := hkept fun _ _ _ _ => spares_dripping
  exact ⟨e, h, by simpa using hp, hk, (hexact hk).1⟩

def drippingOnce : Content :=
  .ofRules (.room "cellar") [
    { Rule.plain "drip" .timer [] with
      timerInterval := some 60
      maxFires := 1
      permanent := true }]

/-- An interval that rounds to nothing loses the timer when it comes up, and so does a record that
gives a rule back the firing that it had used up. -/
theorem timers_lost_dripping :
    (∃ e, Reaches (.builtin 8) [.advance 1 {} 10000000000, .load (dripping 1e-10 10) 0] e ∧
      e.WantsTimer drip ∧ e.timerOf drip = some 1 ∧ (e.job? 1).isNone) ∧
    ∃ e, Reaches (.builtin 8)
        [.restore [⟨"drip", .room "cellar", 0, none⟩], .advance 1 {} 0, .load drippingOnce 0] e ∧
      e.WantsTimer drip ∧ e.timerOf drip = none := by
  constructor
  · obtain ⟨e, h, hp⟩ := exists_reaches (.builtin 8)
      [.advance 1 {} 10000000000, .load (dripping 1e-10 10) 0]
      (fun e => decide (e.WantsTimer drip) && e.timerOf drip == some 1 && (e.job? 1).isNone)
      (by simp [Operation.Authored, dripping, Content.Authored.ofRules]) (by decide +kernel)
    exact ⟨e, h, by simpa [and_assoc] using hp⟩
  · obtain ⟨e, h, hp⟩ := exists_reaches (.builtin 8)
      [.restore [⟨"drip", .room "cellar", 0, none⟩], .advance 1 {} 0, .load drippingOnce 0]
      (fun e => decide (e.WantsTimer drip) && e.timerOf drip == none)
      (by simp [Operation.Authored, drippingOnce, Content.Authored.ofRules]) (by decide +kernel)
    exact ⟨e, h, by simpa using hp⟩

end Engine

end WorldTriggers
