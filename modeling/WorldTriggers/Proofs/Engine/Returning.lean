import WorldTriggers.Proofs.Engine.Endless
import WorldTriggers.Proofs.Engine.Switching

namespace WorldTriggers.Engine

variable {e : Engine}

/-- `advance` returns just when its jobs stop leaving rule jobs that are due already. It does where no
rule can rekindle itself, and it does not where a timer restarts itself or rules put one another off by
no time. -/
theorem advance_returns {settings : Settings} {ops : List Operation} (h : Reaches settings ops e)
    (w : World) (now : Instant) :
    ((∃ budget, (e.advance budget w now).isSome) ↔ StopsAddingDueJobs now e w) ∧
      (Acyclic e.settings.actions e.Has → ∃ budget, (e.advance budget w now).isSome) ∧
      (now ≤ Instant.last → e.Endless now → ∀ budget, e.advance budget w now = none) := by
  refine ⟨?_, ?_, ?_⟩
  · exact drains_iff.trans h.linked.drains_iff_stopsAddingDueJobs
  · intro hacyclic
    exact drains_iff.mpr (h.linked.drains_of_acyclic hacyclic)
  · intro hnow hendless
    exact hendless.advance_eq_none hnow w

def striking : Content :=
  .ofRules (.room "cellar") [
    { Rule.plain "clock" .timer [⟨"fire_trigger", .ofList [("trigger", .string "bell")], 0⟩] with
      timerInterval := some 60
      timerInitialDelay := 10 },
    .plain "bell" .enter [⟨"message_room", .ofList [("text", .string "dong")], 5⟩]]

theorem advance_returns_striking :
    ∃ e, Reaches (.builtin 8) [.load striking 0] e ∧ e.pendingJobs = 1 ∧
      StopsAddingDueJobs 70000000000 e {} ∧ ∃ budget, (e.advance budget {} 70000000000).isSome := by
  obtain ⟨e, h, hp⟩ := exists_reaches (.builtin 8) [.load striking 0]
    (fun e => e.pendingJobs == 1 && e.catalog.scopes.entries.all fun p => p.2.rules.all fun l =>
      l.rule.actions.all (·.wait? != some 0) && l.rule.timerPlan?.all (·.initial != 0))
    (by simp [Operation.Authored, striking, Content.Authored.ofRules]) (by decide +kernel)
  simp only [Bool.and_eq_true, beq_iff_eq, List.all_eq_true] at hp
  obtain ⟨hjobs, hrules⟩ := hp
  have hwaits {ref : RuleRef} {rule : Rule} (hr : e.Has ref rule) :
      (∀ a ∈ rule.actions, (a.wait? != some 0) = true) ∧
        rule.timerPlan?.all (·.initial != 0) = true := by
    obtain ⟨i, l, hi, hl, rfl, -⟩ := Catalog.exists_mem_of_rule? hr
    exact hrules _ hi l hl
  have hacyclic : Acyclic e.settings.actions e.Has := by
    apply acyclic_of_waits
    intro ref
    constructor
    · rintro ⟨rule, a, hr, ha, hwait⟩
      simpa [hwait] using (hwaits hr).1 a ha
    · rintro ⟨rule, plan, hr, hplan, hinitial⟩
      simpa [hplan, hinitial] using (hwaits hr).2
  obtain ⟨hiff, hreturns, -⟩ := advance_returns h {} 70000000000
  exact ⟨e, h, hjobs, hiff.mp (hreturns hacyclic), hreturns hacyclic⟩

def restless : Content :=
  .ofRules (.room "cellar") [
    { Rule.plain "tick" .timer [
        ⟨"disable_trigger", .ofList [("trigger", .string "tick")], 0⟩,
        ⟨"enable_trigger", .ofList [("trigger", .string "tick")], 0⟩] with
      timerInterval := some 60 }]

def tick : RuleRef := ⟨.room "cellar", "tick"⟩

def pingPong : Content :=
  .ofRules (.room "cellar") [
    .plain "ping" .enter [⟨"fire_trigger", .ofList [("trigger", .string "pong")], 1e-10⟩],
    .plain "pong" .enter [⟨"fire_trigger", .ofList [("trigger", .string "ping")], 1e-10⟩]]

def ping : RuleRef := ⟨.room "cellar", "ping"⟩

def pong : RuleRef := ⟨.room "cellar", "pong"⟩

theorem restarting_restless : ∃ e, Reaches (.builtin 8) [.load restless 0] e ∧ e.Restarting tick 0 := by
  obtain ⟨e, h, hp⟩ := exists_reaches (.builtin 8) [.load restless 0]
    (fun e => decide (e.IsOn tick) &&
      (e.catalog.rule? tick).any (fun r : Rule => decide (r.Restarts tick)) &&
      (e.job? 1).any (fun r : Registration Job => decide (r.due ≤ 0)) &&
      e.schedule.jobs.entries.all fun p => p.2.payload.isTimerOf tick)
    (by simp [Operation.Authored, restless, Content.Authored.ofRules]) (by decide +kernel)
  simp only [Bool.and_eq_true, Option.any_eq_true, List.all_eq_true, decide_eq_true_eq] at hp
  obtain ⟨⟨⟨hon, rule, hrule⟩, r, hr, hdue⟩, hjobs⟩ := hp
  refine ⟨e, h, h.linked, h.settled.2.actions, ⟨rule, hrule⟩, hon, ⟨1, r, hr, hdue⟩, ?_⟩
  intro k q hq _
  exact hjobs _ (SortedMap.get?_eq_some_iff.mp hq)

theorem mutualFiring_pingPong :
    ∃ e, Reaches (.builtin 8) [.fireRule {} ping {} 0, .load pingPong 0] e ∧
      e.MutualFiring [ping, pong] 0 := by
  obtain ⟨e, h, hp⟩ := exists_reaches (.builtin 8) [.fireRule {} ping {} 0, .load pingPong 0]
    (fun e => decide (e.IsOn ping) && decide (e.IsOn pong) && decide (0 < e.settings.maxDepth) &&
      (e.catalog.rule? ping).any (fun r : Rule => decide (r.FiresWithoutDelay ping pong)) &&
      (e.catalog.rule? pong).any (fun r : Rule => decide (r.FiresWithoutDelay pong ping)) &&
      (e.job? 1).any (fun r : Registration Job => decide (r.due ≤ 0)) &&
      e.schedule.jobs.entries.all fun p => p.2.payload.isFirstOf [ping, pong])
    (by simp [Operation.Authored, pingPong, Content.Authored.ofRules]) (by decide +kernel)
  simp only [Bool.and_eq_true, Option.any_eq_true, List.all_eq_true, decide_eq_true_eq] at hp
  obtain ⟨⟨⟨⟨⟨⟨honping, honpong⟩, hdepth⟩, rule, hrule⟩, rule', hrule'⟩, r, hr, hdue⟩, hjobs⟩ := hp
  refine ⟨e, h, h.linked, h.settled.2.actions, hdepth, ?_, ?_, ⟨1, r, hr, hdue⟩, ?_⟩
  · intro ref href
    rcases List.mem_pair.mp href with rfl | rfl
    · exact honping
    · exact honpong
  · intro ref href
    rcases List.mem_pair.mp href with rfl | rfl
    · exact ⟨rule, pong, hrule.1, hrule.2, by simp, by decide⟩
    · exact ⟨rule', ping, hrule'.1, hrule'.2, by simp, by decide⟩
  · intro k q hq _
    exact hjobs _ (SortedMap.get?_eq_some_iff.mp hq)

/-- No budget is enough for a timer that restarts itself, or for rules that put one another off by no
time. -/
theorem advance_endless :
    (∃ e, Reaches (.builtin 8) [.load restless 0] e ∧ ∀ budget w, e.advance budget w 0 = none) ∧
      ∃ e, Reaches (.builtin 8) [.fireRule {} ping {} 0, .load pingPong 0] e ∧
        ∀ budget w, e.advance budget w 0 = none := by
  constructor
  · obtain ⟨e, h, hrestarting⟩ := restarting_restless
    exact ⟨e, h, fun budget w => hrestarting.advance_eq_none (by decide) w budget⟩
  · obtain ⟨e, h, hmutual⟩ := mutualFiring_pingPong
    exact ⟨e, h, fun budget w => hmutual.advance_eq_none (by decide) w budget⟩

end WorldTriggers.Engine
