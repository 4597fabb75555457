import WorldTriggers.Proofs.Engine.Actions
import WorldTriggers.Proofs.Engine.Switching

namespace WorldTriggers

/-- Whether one of a rule's actions switches the rule off and a delayed one comes after it, at first
with quiet ones only before and in between. -/
def Rule.DelaysAfterSwitchingOff (r : Rule) (ref : RuleRef) (now : Instant) : Prop :=
  ∃ pre a mid b rest wait, r.actions = pre ++ a :: (mid ++ b :: rest) ∧
    (∀ x ∈ pre ++ mid, x.IsQuiet) ∧
    a.kind = "disable_trigger" ∧ a.wait? = none ∧ a.target? ref.scope = some ref ∧
    b.wait? = some wait ∧ (now.after? wait).isSome

namespace Engine

variable {e : Engine} {ref : RuleRef}

theorem perform_fireRule {epoch : Nat} {rule : Rule} (ht : e.target? ref = some (epoch, rule))
    (w : World) (context : Context) (now : Instant) :
    e.perform (.fireRule w ref context now) =
      some ((Run.start e w now).offer ⟨ref.scope, epoch, rule, context⟩).engine := by
  unfold perform fireRule
  dsimp only
  rw [target_eq_ok_iff.mpr ht]
  rfl

theorem deferred_while_off {w : World} {context : Context} {now : Instant} {epoch : Nat}
    {rule : Rule} (hactions : e.settings.actions = .builtin)
    (ht : e.target? ref = some (epoch, rule))
    (hm : Firing.mayFire ⟨ref.scope, epoch, rule, context⟩ (Run.start e w now))
    (hdelays : rule.DelaysAfterSwitchingOff ref now) :
    ∃ e', e.perform (.fireRule w ref context now) = some e' ∧ e'.isEnabled? ref = some false ∧
      ∃ h r c, e'.job? h = some r ∧ r.payload = .continuation c ∧ c.firing.ref = ref := by
  obtain ⟨pre, a, mid, b, rest, wait, hlist, hquiet, hkind, hprompt, hnames, hwait, hdue⟩ := hdelays
  obtain ⟨due, hdue⟩ := Option.isSome_iff_exists.mp hdue
  let f : Firing := ⟨ref.scope, epoch, rule, context⟩
  have hf : e.Installed f := installed_of_target? ht context
  obtain ⟨cascade, hoffer⟩ := Run.exists_attempt_eq e.settings.maxDepth f (Run.start e w now)
  have henter : Step now e ((Run.start e w now).enter f).engine := .record hf
  -- The quiet actions before the switch, the switch itself, and those up to the delayed one.
  obtain ⟨hpre, hmid⟩ := List.forall_mem_append.mp hquiet
  obtain ⟨run₁, h₁, heq₁⟩ := Run.runActions_quiet cascade f 0 (a :: (mid ++ b :: rest))
    (by rw [henter.settings, hactions]) hpre
  have hcat₁ : run₁.engine.catalog = e.catalog := h₁.keepsFlags.catalog.trans henter.catalog
  have hset₁ : run₁.engine.settings = e.settings := h₁.settings.trans henter.settings
  have hnow₁ : run₁.now = now := h₁.now
  have hoff := setEnabled_of_target? ((target?_congr (by rw [hcat₁])).trans ht) false run₁.now
  have heq₂ := Run.runActions_switch cascade f (0 + pre.length) (mid ++ b :: rest)
    (by rw [hset₁, hactions]) hkind hprompt hnames hoff
  generalize hrun₂ : Run.note _ _ = run₂ at heq₂
  have hset₂ : run₂.engine.settings = run₁.engine.settings := hrun₂ ▸ settings_of_setEnabled hoff
  have hcat₂ : run₂.engine.catalog = run₁.engine.catalog := hrun₂ ▸ catalog_of_setEnabled hoff
  have hflag₂ : run₂.engine.flagOf ref = some false := by
    rw [← hrun₂]
    exact ((keepsFlags_setEnabled hoff).flags ref).trans (by rw [flagOf_flag, if_pos rfl])
  obtain ⟨run₃, h₃, heq₃⟩ := Run.runActions_quiet cascade f (0 + pre.length + 1) (b :: rest)
    (by rw [hset₂, hset₁, hactions]) hmid
  have hnow₃ : run₃.now = now := h₃.now.trans (hrun₂ ▸ hnow₁)
  refine ⟨_, perform_fireRule ht w context now, ?_⟩
  have hrun : (Run.start e w now).offer f =
      { run₃ with engine := run₃.engine.scheduleContinuation ⟨f, 0 + pre.length + 1 + mid.length⟩ due } := by
    rw [Run.offer, show (Run.start e w now).engine = e from rfl, hoffer, Run.attemptWith, if_pos hm]
    change Run.runActions cascade f false 0 rule.actions ((Run.start e w now).enter f) = _
    rw [hlist, heq₁, heq₂, heq₃, Run.runActions, if_neg (by simp), hwait]
    dsimp only
    rw [Run.defer, hnow₃, hdue]
  rw [hrun]
  refine ⟨?_, run₃.engine.schedule.nextHandle,
    ⟨due, run₃.engine.schedule.nextTurn, none,
      .continuation ⟨f, 0 + pre.length + 1 + mid.length⟩⟩, _, ?_, rfl, ref_of_target? ht context⟩
  · have hrule : run₃.engine.catalog.rule? ref = some rule := by
      rw [h₃.keepsFlags.catalog, hcat₂, hcat₁]
      exact (target?_eq_some_iff.mp ht).2
    have hflag : run₃.engine.flagOf ref = some false := (h₃.keepsFlags.flags ref).trans hflag₂
    exact (isEnabled?_eq run₃.engine ref).trans (by rw [hrule, hflag]; rfl)
  · exact (Schedule.job?_register ..).trans (if_pos rfl)

/-- A rule that is off has actions put off only if an earlier one may have switched it off. A rule with
an action that does switch it off, before a delayed one, has actions put off while it is off whenever it
fires. -/
theorem idle_while_off {settings : Settings} {ops : List Operation} (h : Reaches settings ops e) :
    (∀ k r c, e.job? k = some r → r.payload = .continuation c →
      e.isEnabled? c.firing.ref = some true ∨ c.Excused settings.actions (Loaded ops)) ∧
    (settings.actions = .builtin → ∀ w ref context now epoch rule,
      e.target? ref = some (epoch, rule) →
      Firing.mayFire ⟨ref.scope, epoch, rule, context⟩ (Run.start e w now) →
      rule.DelaysAfterSwitchingOff ref now →
      ∃ e', e.perform (.fireRule w ref context now) = some e' ∧ e'.isEnabled? ref = some false ∧
        ∃ k r c, e'.job? k = some r ∧ r.payload = .continuation c ∧ c.firing.ref = ref) := by
  obtain ⟨hsettled, hknows⟩ := h.settled
  refine ⟨hsettled, fun hbuiltin w ref context now epoch rule ht hm hlasts => ?_⟩
  exact deferred_while_off (hknows.actions.trans hbuiltin) ht hm hlasts

def selfSilencing : Content :=
  .ofRules (.room "cellar") [
    .plain "chime" .enter [⟨"message_room", .ofList [("text", .string "ding")], 5⟩],
    .plain "alarm" .enter [
      ⟨"disable_trigger", .ofList [("trigger", .string "alarm")], 0⟩,
      ⟨"message_room", .ofList [("text", .string "clang")], 5⟩]]

def chime : RuleRef := ⟨.room "cellar", "chime"⟩

def alarm : RuleRef := ⟨.room "cellar", "alarm"⟩

theorem idle_while_off_selfSilencing :
    ∃ e, Reaches (.builtin 8) [.fireRule {} chime {} 0, .load selfSilencing 0] e ∧
      e.deferred.get? 1 = some chime ∧
      (∀ k r c, e.job? k = some r → r.payload = .continuation c →
        e.isEnabled? c.firing.ref = some true ∨ c.Excused ActionRegistry.builtin
          (Loaded [.fireRule {} chime {} 0, .load selfSilencing 0])) ∧
      ∃ e', e.perform (.fireRule {} alarm {} 0) = some e' ∧ e'.isEnabled? alarm = some false ∧
        ∃ k r c, e'.job? k = some r ∧ r.payload = .continuation c ∧ c.firing.ref = alarm := by
  obtain ⟨e, h, hp⟩ := exists_reaches (.builtin 8)
    [.fireRule {} chime {} 0, .load selfSilencing 0]
    (fun e => e.deferred.get? 1 == some chime && (e.target? alarm).any fun t =>
      Firing.mayFire ⟨alarm.scope, t.1, t.2, {}⟩ (Run.start e {} 0) &&
      t.2.outline alarm.scope ==
        [("disable_trigger", none, some alarm), ("message_room", some 5000000000, none)])
    (by simp [Operation.Authored, selfSilencing, Content.Authored.ofRules]) (by decide +kernel)
  obtain ⟨hidle, hexact⟩ := idle_while_off h
  simp only [Bool.and_eq_true, beq_iff_eq, Option.any_eq_true] at hp
  obtain ⟨hchime, ⟨epoch, rule⟩, ht, hm, houtline⟩ := hp
  obtain ⟨a, rest, hlist, ha, hrest⟩ := List.map_eq_cons_iff.mp houtline
  obtain ⟨b, rest, rfl, hb, -⟩ := List.map_eq_cons_iff.mp hrest
  simp only [Prod.mk.injEq] at ha hb
  obtain ⟨hkind, hprompt, hnames⟩ := ha
  obtain ⟨-, hwait, -⟩ := hb
  refine ⟨e, h, hchime, hidle, hexact rfl {} alarm {} 0 epoch rule ht hm ?_⟩
  exact ⟨[], a, [], b, rest, 5000000000, hlist, by simp, hkind, hprompt, hnames, hwait, by decide⟩

/-- The alarm is pending although it is off. -/
theorem selfSilencing_pending_while_off :
    ∃ e, Reaches (.builtin 8) [.fireRule {} alarm {} 0, .load selfSilencing 0] e ∧
      e.isEnabled? alarm = some false ∧
      ∃ k r c, e.job? k = some r ∧ r.payload = .continuation c ∧ c.firing.ref = alarm := by
  obtain ⟨e, h, hp⟩ := exists_reaches (.builtin 8)
    [.fireRule {} alarm {} 0, .load selfSilencing 0]
    (fun e => e.isEnabled? alarm == some false && e.deferred.get? 1 == some alarm)
    (by simp [Operation.Authored, selfSilencing, Content.Authored.ofRules]) (by decide +kernel)
  simp only [Bool.and_eq_true, beq_iff_eq] at hp
  exact ⟨e, h, hp.1, 1, h.linked.deferred 1 alarm hp.2⟩

end Engine

end WorldTriggers
