import WorldTriggers.Proofs.Engine.FiringHistories

namespace WorldTriggers

/-- What a stretch of a firing has come to in a run: it is about to process an action, for which the
firing has waited already where it was put off. -/
structure FiringHistory.Along (l : FiringHistory) (s : Stretch) (resumed : Bool) (i : Nat)
    (now : Instant) : Prop where
  firing : l.firing = s.firing
  time : s.now = now
  ordered : (l.carry s).Ordered
  index : (l.carry s).acted.length = i
  waited : if resumed then l.onset.now + l.firing.rule.waits (i + 1) ≤ now else (l.carry s).latest = now

namespace FiringHistory.Along

variable {l : FiringHistory} {s : Stretch} {resumed : Bool} {i : Nat} {now : Instant} {a : Action}

theorem next?_eq (h : l.Along s resumed i now) (ha : s.firing.rule.actions[i]? = some a) :
    (l.carry s).next? = some a := by
  have hindex := h.index
  rw [next?, show (l.carry s).firing = s.firing from h.firing, hindex, ha]

theorem due?_eq {wait : Span} (h : l.Along s false i now) (ha : s.firing.rule.actions[i]? = some a)
    (hw : a.wait? = some wait) : (l.carry s).due? = now.after? wait := by
  have hlatest : (l.carry s).latest = now := h.waited
  rw [due?, h.next?_eq ha, hlatest, Option.bind_some, hw, Option.bind_some]

theorem next?_eq_none (h : l.Along s resumed i now) (ha : s.firing.rule.actions[i]? = none) :
    (l.carry s).next? = none := by
  have hindex := h.index
  rw [next?, show (l.carry s).firing = s.firing from h.firing, hindex, ha]

theorem act (h : l.Along s resumed i now) (ha : s.firing.rule.actions[i]? = some a)
    (hw : resumed = true ∨ a.wait? = none) : l.Along (s.act i) false (i + 1) now := by
  have hcarry := l.carry_act h.index
  have hnext := h.next?_eq ha
  have htime : l.onset.now + l.firing.rule.waits (i + 1) ≤ now := by
    cases resumed with
    | true => exact h.waited
    | false =>
      have hlatest : (l.carry s).latest = now := h.waited
      have hwaits : l.onset.now + l.firing.rule.waits (l.carry s).acted.length ≤ (l.carry s).latest :=
        h.ordered.waits_le
      rw [h.index, hlatest] at hwaits
      rw [← h.firing] at ha
      rw [Rule.waits_succ ha, hw.resolve_left (by simp)]
      simpa using hwaits
  refine ⟨h.firing, h.time, ?_, ?_, ?_⟩
  · rw [hcarry, h.time]
    refine h.ordered.act (by rw [hnext]; rfl) ?_
    rw [h.index]
    exact htime
  · rw [hcarry, FiringHistory.act, List.length_append, h.index]
    rfl
  · rw [if_neg (by simp), hcarry, h.time]
    simp [latest, FiringHistory.act]

end FiringHistory.Along

theorem FiringHistory.Ordered.along {l : FiringHistory} {due now : Instant} (ho : l.Ordered)
    (hdue : l.due? = some due) (hnow : due ≤ now) :
    FiringHistory.Along { l with status := .underWay } ⟨l.firing, now, []⟩ true l.acted.length now := by
  have hcarry : FiringHistory.carry { l with status := .underWay } ⟨l.firing, now, []⟩ =
      { l with status := .underWay } := by
    simp [FiringHistory.carry]
  refine ⟨rfl, rfl, by rw [hcarry]; exact ho.setStatus _, by rw [hcarry], ?_⟩
  obtain ⟨wait, hwait, hafter⟩ := Option.bind_eq_some_iff.mp hdue
  obtain ⟨a, ha, hwait⟩ := Option.bind_eq_some_iff.mp hwait
  obtain ⟨rfl, -, -⟩ := Instant.after?_eq_some_iff.mp hafter
  rw [if_pos rfl]
  calc l.onset.now + l.firing.rule.waits (l.acted.length + 1)
      = l.onset.now + l.firing.rule.waits l.acted.length + wait := by
        rw [Rule.waits_succ ha, hwait, Option.getD_some, Int.add_assoc]
    _ ≤ l.latest + wait := Int.add_le_add_right ho.waits_le wait
    _ ≤ now := hnow

theorem Action.callsOff_of_act {run : Run} {f : Firing} {a : Action}
    (h : (run.act f a).1.cancelRest = true) : a.CallsOff run.engine.settings.actions f := by
  unfold Run.act at h
  split at h
  · cases h
  · split at h
    · cases h
    · exact ⟨_, _, _, _, ‹_›, ‹_›, h⟩

/-- What is true of an engine, with the firings that rest. -/
structure Engine.MatchesHistories (actions : ActionRegistry) (e : Engine) (ls : List FiringHistory) :
    Prop where
  linked : e.Linked
  handlers : e.settings.actions = actions
  ordered : ∀ l ∈ ls, l.Ordered
  rests : ∀ l ∈ ls, l.Rests actions
  awaits : e.Awaits ls

namespace Engine.MatchesHistories

variable {actions : ActionRegistry} {e e' : Engine} {ls : List FiringHistory} {l : FiringHistory}

theorem congr (h : MatchesHistories actions e ls) (hl : e'.Linked) (hs : e'.settings = e.settings)
    (ha : Awaiting e e') : MatchesHistories actions e' ls :=
  ⟨hl, by rw [hs, h.handlers], h.ordered, h.rests, h.awaits.congr ha⟩

theorem retain {p : RuleRef → Bool} (h : MatchesHistories actions e ls) (hl : e'.Linked)
    (hs : e'.settings = e.settings) (hr : Retains e p e') :
    MatchesHistories actions e' (ls.map (FiringHistory.retain p)) := by
  refine ⟨hl, by rw [hs, h.handlers], fun q hq => ?_, fun q hq => ?_, h.awaits.retain hr⟩
  · obtain ⟨l, hl, rfl⟩ := List.mem_map.mp hq
    exact (h.ordered l hl).retain
  · obtain ⟨l, hl, rfl⟩ := List.mem_map.mp hq
    exact (h.rests l hl).retain

theorem cons (h : MatchesHistories actions e ls) (hl : e'.Linked) (hs : e'.settings = e.settings)
    (ho : l.Ordered) (hr : l.Rests actions) (ha : e'.Awaits (l :: ls)) :
    MatchesHistories actions e' (l :: ls) :=
  ⟨hl, by rw [hs, h.handlers], List.forall_mem_cons.mpr ⟨ho, h.ordered⟩,
    List.forall_mem_cons.mpr ⟨hr, h.rests⟩, ha⟩

theorem settle (h : MatchesHistories actions e ls) (ho : l.Ordered) (hr : l.Rests actions)
    (hl : ∀ k, l.status ≠ .asleep k) : MatchesHistories actions e (l :: ls) :=
  h.cons h.linked rfl ho hr (h.awaits.settle hl)

theorem putOff {s : Stretch} {i : Nat} {a : Action} {wait : Span} {now due : Instant}
    (h : MatchesHistories actions e ls) (hf : e.Installed s.firing) (hl : l.Along s false i now)
    (ha : s.firing.rule.actions[i]? = some a) (hw : a.wait? = some wait)
    (hd : now.after? wait = some due) :
    MatchesHistories actions (e.scheduleContinuation ⟨s.firing, i⟩ due)
      ({ l.carry s with status := .asleep e.schedule.nextHandle } :: ls) := by
  have hdue : (l.carry s).due? = some due := (hl.due?_eq ha hw).trans hd
  have hput (j : Handle) : (e.scheduleContinuation ⟨s.firing, i⟩ due).putOff? j =
      if j = e.schedule.nextHandle then some (⟨l.firing, (l.carry s).acted.length⟩, due)
      else e.putOff? j := by
    rw [hl.firing, hl.index]
    exact putOff?_scheduleContinuation ..
  refine h.cons ?_ rfl (hl.ordered.setStatus _) ⟨due, hdue⟩ ?_
  · exact h.linked.scheduleContinuation hf (List.getElem?_eq_some_iff.mp ha).1
      (Instant.after?_eq_some_iff.mp hd).2.1
  · exact h.awaits.sleep h.linked.putOff?_nextHandle hput rfl hdue

theorem wake {ls : FiringHistories} {k : Handle} {r : Registration Job} {c : Continuation} {now : Instant}
    (h : MatchesHistories actions e ls.resting) (hr : e.job? k = some r) (hp : r.payload = .continuation c)
    (hdue : r.due ≤ now) :
    (e.taken k r now).MatchesHistories actions (ls.tell (.woke k)).resting ∧
      ∃ l, (ls.tell (.woke k)).underWay = l :: ls.underWay ∧
        l.Along ⟨c.firing, now, []⟩ true c.next now := by
  have hput : e.putOff? k = some (c, r.due) := putOff?_eq_some_iff.mpr ⟨r, hr, hp, rfl⟩
  obtain ⟨l, pre, post, hstatus, hrest, htell⟩ :=
    FiringHistories.tell_woke (h.awaits.known k (by simp [hput]))
  have hmem : l ∈ ls.resting := by simp [hrest]
  obtain ⟨due, hnext, hput'⟩ := h.awaits.pending l hmem k hstatus
  obtain ⟨rfl, rfl⟩ := Prod.mk.inj (Option.some.inj (hput.symm.trans hput'))
  have hsub : ∀ q ∈ pre ++ post, q ∈ ls.resting := by
    intro q hq
    rw [hrest]
    exact List.perm_middle.mem_iff.mpr (List.mem_cons_of_mem _ hq)
  rw [htell]
  refine ⟨⟨h.linked.taken hr now, by rw [settings_taken, h.handlers],
    fun q hq => h.ordered q (hsub q hq), fun q hq => h.rests q (hsub q hq), ?_⟩,
    _, rfl, (h.ordered l hmem).along hnext hdue⟩
  exact Awaits.wake (hrest ▸ h.awaits) hstatus (h.linked.putOff?_taken hr now)

end Engine.MatchesHistories

namespace Passage

def IsInstalled (e : Engine) : Passage → Prop
  | offers fs => ∀ f ∈ fs, e.Installed f
  | attempt f => e.Installed f
  | actions s _ _ => e.Installed s.firing
  | followups .. => True

def Takes (now : Instant) (underWay : List FiringHistory) : Passage → Prop
  | actions s resumed i => ∃ l outer, underWay = l :: outer ∧ l.Along s resumed i now
  | _ => True

def leaves (underWay : List FiringHistory) : Passage → List FiringHistory
  | actions .. => underWay.tail
  | _ => underWay

end Passage

namespace Run

open Engine

variable {actions : ActionRegistry} {max depth depth' : Nat} {passage : Passage} {run run' : Run}
  {ds : List RuleEvent}

theorem matchesHistories_applyFollowup {x : Followup} (hx : ∀ target, x ≠ .fireRule target) (f : Firing)
    {ls : FiringHistories} (hc : run.engine.MatchesHistories actions ls.resting) :
    (applyFollowup none f run x).engine.MatchesHistories actions
        (ls.tellAll (followupRuleEvents none f run x)).resting ∧
      (ls.tellAll (followupRuleEvents none f run x)).underWay = ls.underWay := by
  cases x with
  | fireRule target => exact absurd rfl (hx target)
  | setEnabled target enabled =>
    unfold applyFollowup followupRuleEvents
    dsimp only
    cases hset : run.engine.setEnabled target enabled run.now with
    | ok set =>
      obtain ⟨notice, engine⟩ := set
      exact ⟨hc.retain (hc.linked.setEnabled hset) (settings_of_setEnabled hset)
        (hc.linked.retains_setEnabled hset), rfl⟩
    | error err => exact ⟨hc, rfl⟩
  | expireEffect actor effect stat after =>
    unfold applyFollowup followupRuleEvents
    dsimp only
    split
    · rename_i due hdue
      have hlinked := hc.linked.scheduleExpiry actor effect stat
        (Instant.after?_eq_some_iff.mp hdue).2.1
      exact ⟨hc.congr hlinked rfl (hc.linked.awaiting_scheduleExpiry actor effect stat due), rfl⟩
    · exact ⟨hc, rfl⟩

theorem Unfolds.matchesHistories (h : Unfolds max passage depth run ds depth' run') (ls : FiringHistories)
    (hg : passage.IsInstalled run.engine) (ht : passage.Takes run.now ls.underWay)
    (hc : run.engine.MatchesHistories actions ls.resting) :
    run'.engine.MatchesHistories actions (ls.tellAll ds).resting ∧
      (ls.tellAll ds).underWay = passage.leaves ls.underWay := by
  induction h generalizing ls with
  | done | refused | settled => exact ⟨hc, rfl⟩
  | offered h hrest ih ihrest =>
    obtain ⟨hf, hfs⟩ := List.forall_mem_cons.mp hg
    obtain ⟨hmid, hunder⟩ := ih ls hf trivial hc
    rw [FiringHistories.tellAll_append]
    obtain ⟨hdone, hleft⟩ :=
      ihrest _ (fun f hf => (hfs f hf).congr (h.fires ‹_›).catalog) trivial hmid
    exact ⟨hdone, hleft.trans hunder⟩
  | @fired f depth depth' run run' ds hm h ih =>
    -- To record a firing may stop a timer, but no continuation.
    have hsteps : Step run.now run.engine (run.engine.recordFiring f run.now) := .record hg
    refine ih (ls.tell (.fired (run.onset f depth))) (hg.congr (catalog_recordFiring ..)) ?_ ?_
    · exact ⟨_, _, rfl, rfl, rfl, ⟨rfl, Nat.zero_le _, List.forall_mem_nil _⟩, rfl, rfl⟩
    · exact hc.congr (hc.linked.step hsteps) hsteps.settings (hc.linked.awaiting_recordFiring hg)
  | @finished s resumed i depth run ha =>
    obtain ⟨l, outer, hunder, halong⟩ := ht
    rw [FiringHistories.tellAll_stopped hunder, Passage.leaves, hunder]
    exact ⟨hc.settle (halong.ordered.setStatus _) (halong.next?_eq_none ha) nofun, rfl⟩
  | @deferred s i a wait due depth run ha hw hd =>
    obtain ⟨l, outer, hunder, halong⟩ := ht
    rw [FiringHistories.tellAll_stopped hunder, Passage.leaves, hunder]
    exact ⟨hc.putOff hg halong ha hw hd, rfl⟩
  | @stranded s i a wait depth run ha hw hd =>
    obtain ⟨l, outer, hunder, halong⟩ := ht
    have hlatest : (l.carry s).latest = run.now := halong.waited
    rw [FiringHistories.tellAll_stopped hunder, Passage.leaves, hunder]
    refine ⟨hc.settle (halong.ordered.setStatus _) ⟨a, wait, halong.next?_eq ha, hw, ?_⟩ nofun, rfl⟩
    exact hlatest ▸ hd
  | @calledOff s resumed i a depth depth' run run' ds ha hw hcancel h ih =>
    obtain ⟨l, outer, hunder, halong⟩ := ht
    have hacted := halong.act ha hw
    have hcalls := Action.callsOff_of_act hcancel
    rw [hc.handlers, ← halong.firing] at hcalls
    obtain ⟨hmid, hleft⟩ := ih ls trivial trivial (by rwa [engine_act])
    rw [FiringHistories.tellAll_append, FiringHistories.tellAll_stopped (hleft.trans hunder),
      Passage.leaves, hunder]
    refine ⟨hmid.settle (hacted.ordered.setStatus _) ⟨i, a, hacted.index, ?_, hcalls⟩ nofun, rfl⟩
    exact halong.firing ▸ ha
  | @acted s resumed i a depth depth₁ depth' run mid run' ds ds' ha hw hcancel h hrest ih ihrest =>
    obtain ⟨l, outer, hunder, halong⟩ := ht
    obtain ⟨hmid, hleft⟩ := ih ls trivial trivial (by rwa [engine_act])
    -- What the followups fire has come to rest again, so that this firing is the innermost once more.
    have hfires := h.fires trivial
    have hnow : mid.now = run.now := hfires.now.trans (now_act ..)
    have hpassage : mid.engine.Installed s.firing :=
      hg.congr (hfires.catalog.trans (by rw [engine_act]))
    rw [FiringHistories.tellAll_append]
    obtain ⟨hdone, houter⟩ := ihrest _ hpassage
      ⟨l, outer, hleft.trans hunder, hnow ▸ halong.act ha hw⟩ hmid
    refine ⟨hdone, houter.trans ?_⟩
    exact congrArg List.tail hleft
  | followed hx h ih =>
    obtain ⟨hmid, hunder⟩ := matchesHistories_applyFollowup hx _ hc
    rw [FiringHistories.tellAll_append]
    obtain ⟨hdone, hleft⟩ := ih _ trivial trivial hmid
    exact ⟨hdone, hleft.trans hunder⟩
  | tooDeep hd h ih => exact ih ls trivial trivial hc
  | missing hd htarget h ih => exact ih ls trivial trivial hc
  | cascaded hd htarget h hrest ih ihrest =>
    obtain ⟨hmid, hunder⟩ := ih ls (installed_of_target? htarget _) trivial hc
    rw [FiringHistories.tellAll_append]
    obtain ⟨hdone, hleft⟩ := ihrest _ trivial trivial hmid
    exact ⟨hdone, hleft.trans hunder⟩

end Run

namespace Engine

variable {actions : ActionRegistry} {e e' : Engine} {op : Operation} {ds : List RuleEvent}
  {ls : FiringHistories}

theorem MatchesHistories.operationStep (hc : e.MatchesHistories actions ls.resting)
    (hunder : ls.underWay = []) (h : OperationStep op e ds e') :
    e'.MatchesHistories actions (ls.tellAll ds).resting ∧ (ls.tellAll ds).underWay = [] := by
  have hl := hc.linked
  have hlinked := hl.operationStep h
  have hsettings := h.settings hl
  cases h with
  | loaded hop ht hrules hloaded =>
    exact ⟨hc.congr hlinked hsettings (hl.awaiting_install hloaded hrules (carries_nil _) _), hunder⟩
  | @replaced c now hop ht hrules =>
    have hdetached := hl.detach c.scope
    have hinstall := hdetached.awaiting_install (not_contains_detach ..) hrules
      (carries_carriedStates e c) now
    unfold removal
    split
    · have hremoved := hc.retain hdetached rfl (hl.retains_detach c.scope)
      refine ⟨hremoved.congr hlinked hsettings hinstall, hunder⟩
    · have hsame := hc.congr hdetached rfl (hl.awaiting_detach (Bool.eq_false_of_not_eq_true ‹_›))
      exact ⟨hsame.congr hlinked hsettings hinstall, hunder⟩
  | removed hop hloaded => exact ⟨hc.retain hlinked hsettings (hl.retains_detach _), hunder⟩
  | switched ht h => exact ⟨hc.retain hlinked hsettings (hl.retains_setEnabled h), hunder⟩
  | @offered now fs ht w hfs =>
    have hunfolds := Passage.unfolds (Nat.zero_le e.settings.maxDepth) (.offers fs) (Run.start e w now)
    obtain ⟨hdone, hleft⟩ := hunfolds.matchesHistories ls hfs trivial hc
    exact ⟨hdone, hleft.trans hunder⟩
  | popped ht hr hdue hp =>
    exact ⟨hc.congr hlinked hsettings (hl.awaiting_taken hr hp _), hunder⟩
  | @woken k r c now ht w hr hdue hp =>
    obtain ⟨htaken, l, hawake, halong⟩ := hc.wake hr hp hdue
    have hput : e.putOff? k = some (c, r.due) := putOff?_eq_some_iff.mpr ⟨r, hr, hp, rfl⟩
    have hpassage : (e.taken k r now).Installed c.firing :=
      (hl.of_putOff? hput).1.congr (catalog_taken ..)
    let run := Run.start (e.taken k r now) w now
    have hunfolds := Passage.unfolds (Nat.zero_le run.engine.settings.maxDepth)
      (.actions ⟨c.firing, now, []⟩ true c.next) { run with visited := c.firing.ref :: run.visited }
    -- The firing that woke is the only one under way, and at rest when the run is over.
    obtain ⟨hdone, hleft⟩ := hunfolds.matchesHistories (ls.tell (.woke k)) hpassage
      ⟨l, ls.underWay, hawake, halong⟩ htaken
    rw [Run.resumeRuleEvents, FiringHistories.tellAll_cons, Run.resume_eq _ _ 0]
    refine ⟨hdone, hleft.trans ?_⟩
    rw [Passage.leaves, hawake, List.tail_cons, hunder]
  | restored hop hr =>
    exact ⟨hc.congr hlinked hsettings (hl.awaiting_restoreOne _), hunder⟩

theorem matchesHistories_ofSettings (settings : Settings) :
    (ofSettings settings).MatchesHistories settings.actions [] where
  linked := linked_ofSettings settings
  handlers := rfl
  ordered := List.forall_mem_nil _
  rests := List.forall_mem_nil _
  awaits := ⟨List.forall_mem_nil _, fun _ hk => (nomatch hk), .nil⟩

/-- What is told of a run is how it unfolds, and so told every firing processes its actions in order and
in due time, across all that it puts off. It has finished unless an action called off the others, the
next one would have to wait beyond all time, or it was cancelled in its sleep; those that are asleep have
one continuation each, which goes on where they are. The times of dispatches and of jobs are instants, that
is no leap seconds, which neither the system's clock nor the addition of a delay gives. -/
theorem sequencing_of_authored {settings : Settings} {ops : List Operation}
    (ha : ∀ op ∈ ops, op.Authored) :
    (∀ max depth passage run, depth ≤ max → Run.Unfolds max passage depth run
        (passage.ruleEvents max depth run) depth (passage.outcome max depth run)) ∧
      (firingHistoriesOf (history settings ops)).underWay = [] ∧
      ((firingHistoriesOf (history settings ops)).resting.map FiringHistory.onset).Perm
        (onsets (history settings ops)) ∧
      (∀ l ∈ (firingHistoriesOf (history settings ops)).resting, l.Ordered ∧ l.Rests settings.actions) ∧
      ∀ e, Reaches settings ops e → e.Awaits (firingHistoriesOf (history settings ops)).resting := by
  let motive (ds : List RuleEvent) (e : Engine) : Prop :=
    e.MatchesHistories settings.actions (firingHistoriesOf ds).resting ∧
      (firingHistoriesOf ds).underWay = []
  have hopStep (op : Operation) (ds : List RuleEvent) (d : Engine) (ds' : List RuleEvent) (d' : Engine)
      (h : OperationStep op d ds' d') (hm : motive ds d) : motive (ds ++ ds') d' := by
    unfold motive firingHistoriesOf
    rw [FiringHistories.tellAll_append]
    exact hm.1.operationStep hm.2 h
  obtain ⟨e', ⟨hc, hunder⟩, hlast⟩ : ∃ e', motive (history settings ops) e' ∧
      ∀ d, (ofSettings settings).performAll? ops = some d → d = e' :=
    ruleEventsSince_induct (linked_ofSettings settings) ha
      (fun op _ ds d ds' d' _ => hopStep op ds d ds' d') ⟨matchesHistories_ofSettings settings, rfl⟩
  have hperm := onsets_firingHistoriesOf (history settings ops)
  rw [FiringHistories.onsets_of_underWay hunder] at hperm
  refine ⟨fun _ _ passage run hd => passage.unfolds hd run, hunder, hperm,
    fun l hl => ⟨hc.ordered l hl, hc.rests l hl⟩, fun e he => ?_⟩
  rw [hlast e (by rw [performAll?_ofSettings, (reaches_iff.mp he).2])]
  exact hc.awaits

def knell : Content :=
  .ofRules (.room "tower") [
    .plain "knell" .enter [
      ⟨"message_room", .ofList [("text", .string "dong")], 0⟩, ⟨"whistle", .empty, 5⟩,
      ⟨"message_room", .ofList [("text", .string "dong")], 0⟩]]

def ringing : List Operation :=
  [.fireRule {} ⟨.room "tower", "knell"⟩ {} 6000000000, .advance 1 {} 5500000000,
    .fireRule {} ⟨.room "tower", "knell"⟩ {} 0, .load knell 0]

theorem sequencing_ringing :
    ((firingHistoriesOf (history (.builtin 8) ringing)).resting.map fun l => (l.acted, l.status)) =
        [([(0, 6000000000)], .asleep 2),
          ([(0, 0), (1, 5500000000), (2, 5500000000)], .finished)] ∧
      (∀ l ∈ (firingHistoriesOf (history (.builtin 8) ringing)).resting, l.Ordered) ∧
      ∃ e, Reaches (.builtin 8) ringing e ∧ e.pendingJobs = 1 ∧
        e.Awaits (firingHistoriesOf (history (.builtin 8) ringing)).resting := by
  have hauthored : ∀ op ∈ ringing, op.Authored := by
    simp [ringing, Operation.Authored, knell, Content.Authored.ofRules]
  obtain ⟨-, -, -, hhistories, hawaits⟩ := @sequencing_of_authored (.builtin 8) ringing hauthored
  obtain ⟨e, he, hjobs⟩ := exists_reaches (.builtin 8) ringing (·.pendingJobs == 1) hauthored
    (by decide +kernel)
  exact ⟨by decide +kernel, fun l hl => (hhistories l hl).1, e, he, by simpa using hjobs, hawaits e he⟩

end Engine

end WorldTriggers
