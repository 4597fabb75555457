import WorldTriggers.Proofs.Engine.OperationTallies
import WorldTriggers.Proofs.Engine.Relabelling
import WorldTriggers.Proofs.Engine.TimersRestored

namespace WorldTriggers.Engine

variable {e d f : Engine} {c : Content} {ref : RuleRef} {now : Instant} {settings : Settings}
  {ops : List Operation}

def carried? (e : Engine) (c : Content) (ref : RuleRef) : Option RuleState :=
  if ref.scope = c.scope ∧ (e.catalog.rule? ref).any (·.permanent) = true ∧
      (c.rules.any fun r => r.id == ref.rule && r.permanent) = true then
    e.states.get? ref
  else none

def carriedCount (e : Engine) (c : Content) (ref : RuleRef) : Nat :=
  ((e.carried? c ref).map (·.fireCount)).getD 0

/-- An engine like another one, under other numbers, but that some rules keep states from before. Timers
that these states exhaust are missing. -/
structure CarriesOver (n : Relabelling) (kept : RuleRef → Option RuleState) (d f : Engine) : Prop where
  settings : f.settings = d.settings
  catalog : f.catalog = d.catalog
  waiting : f.waiting = d.waiting
  keeps : ∀ ref s, kept ref = some s →
    d.states.get? ref = some { s with timer := d.timerOf ref, enabledOverride := none }
  others : ∀ ref, kept ref = none → f.states.get? ref = (d.states.get? ref).map n.state
  deferred : ∀ k ref, f.deferred.get? k = some ref ↔
    ∃ h, d.deferred.get? h = some ref ∧ k = n.handle h
  jobs : Alongside n (fun ref => ∃ s rule, kept ref = some s ∧ d.catalog.rule? ref = some rule ∧
    s.isExhausted rule.fireLimit? = true) d f

def Rearms (e : Engine) (c : Content) (now : Instant) (ref : RuleRef) (due : Instant)
    (interval : Option Span) : Prop :=
  ∃ rule ∈ c.rules, rule.id = ref.rule ∧ rule.event = .timer ∧ rule.enabled = true ∧
    (∀ n, rule.fireLimit? = some n → e.carriedCount c ref < n) ∧
    ∃ plan, rule.timerPlan? = some plan ∧ now.after? plan.initial = some due ∧
      interval = if 0 < plan.interval then some plan.interval else none

structure Rearmed (e : Engine) (c : Content) (now : Instant) (d : Engine) : Prop where
  only : ∀ ref h r, ref.scope = c.scope → d.job? h = some r → r.payload.ref? = some ref →
    (∃ epoch, r.payload = .ruleTimer ref epoch) ∧ d.timerOf ref = some h ∧
      e.Rearms c now ref r.due r.interval
  all : ∀ ref due interval, ref.scope = c.scope → e.Rearms c now ref due interval →
    ∃ h r, d.job? h = some r ∧ r.payload.ref? = some ref ∧ r.due = due ∧ r.interval = interval
  idle : ∀ ref, ref.scope = c.scope → (∀ due interval, ¬e.Rearms c now ref due interval) →
    d.timerOf ref = none

theorem mem_carriedStates_iff_carried? {s : RuleState} :
    (ref, s) ∈ e.carriedStates c.scope c.rules ↔ ∃ t, e.carried? c ref = some t ∧ t.carried = s := by
  have hperm : hasPermanent c.rules ref.rule = c.rules.any fun r => r.id == ref.rule && r.permanent := rfl
  rw [mem_carriedStates_iff, hperm]
  unfold carried?
  split
  · rename_i h
    simp only [h.1, h.2.1, h.2.2, true_and]
  · rename_i h
    constructor
    · rintro ⟨hs, hold, hnew, -⟩
      exact absurd ⟨hs, hold, hnew⟩ h
    · rintro ⟨t, ht, -⟩
      cases ht

section Detached

theorem Linked.waitingFor_detach (hl : e.Linked) (hc : e.catalog.contains c.scope = true) :
    (e.detach c.scope).waitingFor c.scope = [] := by
  refine List.eq_nil_iff_forall_not_mem.mpr fun r hr => ?_
  have hw : r ∈ e.waitingFor c.scope := hr
  obtain ⟨hget, hs⟩ := hl.mem_waitingFor_iff.mp hw
  rw [← hs, (hl.waiting r.ref r hget).2] at hc
  cases hc

theorem get?_placed_carried (hs : ref.scope = c.scope) :
    ((e.detach c.scope).placed c (e.carriedStates c.scope c.rules)).states.get? ref =
      (e.carried? c ref).map RuleState.carried := by
  obtain ⟨hsome, hnone⟩ := get?_foldl_insert (e.carriedStates c.scope c.rules)
    (e.states.withoutScope c.scope) ref
  rw [RuleStates.get?_withoutScope, if_pos hs] at hsome hnone
  cases hcarried : e.carried? c ref with
  | none =>
    refine hnone fun s hm => ?_
    obtain ⟨t, ht, -⟩ := mem_carriedStates_iff_carried?.mp hm
    rw [hcarried] at ht
    cases ht
  | some t =>
    obtain ⟨s, hfound⟩ := Option.isSome_iff_exists.mp (get?_foldl_insert_isSome
      (e.states.withoutScope c.scope)
      (.inl ⟨_, mem_carriedStates_iff_carried?.mpr ⟨t, hcarried, rfl⟩⟩))
    rcases hsome s hfound with hm | hm
    · obtain ⟨u, hu, rfl⟩ := mem_carriedStates_iff_carried?.mp hm
      rw [hcarried] at hu
      rw [Option.some.inj hu]
      exact hfound
    · cases hm

theorem get?_placed_nil (hs : ref.scope = c.scope) :
    ((e.detach c.scope).placed c []).states.get? ref = none := by
  refine (RuleStates.get?_withoutScope ..).trans (if_pos hs)

theorem get?_placed_of_ne {carried : List (RuleRef × RuleState)} (hcarries : Carries c carried)
    (hs : ref.scope ≠ c.scope) :
    ((e.detach c.scope).placed c carried).states.get? ref = e.states.get? ref :=
  (get?_states_placed_of_ne hcarries hs).trans ((RuleStates.get?_withoutScope ..).trans (if_neg hs))

theorem carried?_of_ne (hs : ref.scope ≠ c.scope) : e.carried? c ref = none := if_neg fun h => hs h.1

theorem get?_placed_eq (h : e.carried? c ref = none) :
    ((e.detach c.scope).placed c (e.carriedStates c.scope c.rules)).states.get? ref =
      ((e.detach c.scope).placed c []).states.get? ref := by
  by_cases hs : ref.scope = c.scope
  · rw [get?_placed_carried hs, get?_placed_nil hs, h]
    rfl
  · rw [get?_placed_of_ne (carries_carriedStates e c) hs, get?_placed_of_ne (carries_nil c) hs]

theorem rule?_placed {carried : List (RuleRef × RuleState)} (id : RuleId) :
    (e.placed c carried).catalog.rule? ⟨c.scope, id⟩ = c.rules.find? (·.id == id) :=
  Catalog.rule?_insert_self ..

end Detached

section Reload

theorem Linked.armed_reload (hl : e.Linked) (hrules : Content.Sound c.rules)
    {carried : List (RuleRef × RuleState)} (hcarries : Carries c carried) (now : Instant) :
    Armed c.scope (e.catalog.lastEpoch + 1) now (timerRules c) ((e.detach c.scope).placed c carried)
      (((e.detach c.scope).placed c carried).armEach c.scope (e.catalog.lastEpoch + 1) now
        (timerRules c)) := by
  have hdetached := hl.detach c.scope
  have hgone := not_contains_detach e c.scope
  exact (hdetached.placed hgone hrules hcarries).armed hrules
    (fun _ hs => hdetached.timerOf_placed_self hgone hcarries hs) ..

theorem Linked.reload_eq (hl : e.Linked) (hc : e.catalog.contains c.scope = true) (now : Instant) :
    (e.reload c now).2 = ((e.detach c.scope).placed c (e.carriedStates c.scope c.rules)).armEach
      c.scope (e.catalog.lastEpoch + 1) now (timerRules c) :=
  install_of_none_waiting (hl.waitingFor_detach hc) now

theorem Linked.load_detach_eq (hl : e.Linked) (hc : e.catalog.contains c.scope = true)
    (now : Instant) : ((e.detach c.scope).load c now).2 = ((e.detach c.scope).placed c []).armEach
      c.scope (e.catalog.lastEpoch + 1) now (timerRules c) := by
  rw [load_of_not_contains (not_contains_detach ..)]
  exact install_of_none_waiting (hl.waitingFor_detach hc) now

theorem stateOf_placed_carried (hs : ref.scope = c.scope) :
    ((e.detach c.scope).placed c (e.carriedStates c.scope c.rules)).states.stateOf ref =
      ((e.carried? c ref).map RuleState.carried).getD {} := by
  rw [RuleStates.stateOf, get?_placed_carried hs]

theorem stateOf_placed_nil (hs : ref.scope = c.scope) :
    ((e.detach c.scope).placed c []).states.stateOf ref = {} := by
  rw [RuleStates.stateOf, get?_placed_nil hs]
  rfl

theorem startOf?_placed_carried {l : LoadedRule} {s : Start} :
    ((e.detach c.scope).placed c (e.carriedStates c.scope c.rules)).startOf? c.scope now l = some s ↔
      ((e.detach c.scope).placed c []).startOf? c.scope now l = some s ∧
        ∀ t, e.carried? c ⟨c.scope, l.rule.id⟩ = some t → t.isExhausted l.rule.fireLimit? = false := by
  unfold startOf?
  rw [stateOf_placed_nil rfl, stateOf_placed_carried rfl]
  cases hcarried : e.carried? c ⟨c.scope, l.rule.id⟩ with
  | none => simp
  | some t =>
    have hexhausted : t.carried.isExhausted l.rule.fireLimit? = t.isExhausted l.rule.fireLimit? := rfl
    rw [Option.map_some, Option.getD_some, Rule.start?_iff_default rfl, hexhausted]
    simp

theorem startOf?_placed_iff (hrules : Content.Sound c.rules) {l : LoadedRule} (hm : l ∈ timerRules c)
    (s : Start) :
    ((e.detach c.scope).placed c (e.carriedStates c.scope c.rules)).startOf? c.scope now l = some s ↔
      ((e.detach c.scope).placed c []).startOf? c.scope now l = some s ∧
        ¬∃ t rule, e.carried? c ⟨c.scope, l.rule.id⟩ = some t ∧
          ((e.detach c.scope).placed c []).catalog.rule? ⟨c.scope, l.rule.id⟩ = some rule ∧
            t.isExhausted rule.fireLimit? = true := by
  obtain ⟨r, hr, -, rfl⟩ := mem_timerRules.mp hm
  have hrule : ((e.detach c.scope).placed c []).catalog.rule? ⟨c.scope, r.id⟩ = some r :=
    (rule?_placed r.id).trans (hrules.find?_of_mem hr)
  rw [startOf?_placed_carried, LoadedRule.rule_ofRule]
  refine and_congr_right fun _ => ⟨?_, fun hmore t ht => ?_⟩
  · rintro h ⟨t, rule, ht, hrule', hex⟩
    obtain rfl := Option.some.inj (hrule.symm.trans hrule')
    rw [h t ht] at hex
    cases hex
  · exact Bool.eq_false_of_not_eq_true fun hex => hmore ⟨t, r, ht, hrule, hex⟩

theorem Linked.exists_carriesOver (hl : e.Linked) (hturns : e.schedule.InTurn)
    (hc : e.catalog.contains c.scope = true) (hrules : Content.Sound c.rules) (now : Instant) :
    ∃ n, CarriesOver n (e.carried? c) (e.reload c now).2 ((e.detach c.scope).load c now).2 := by
  let p := (e.detach c.scope).placed c (e.carriedStates c.scope c.rules)
  let q := (e.detach c.scope).placed c []
  have hdetached := hl.detach c.scope
  have hgone := not_contains_detach e c.scope
  have hlq : q.Linked := hdetached.placed hgone hrules (carries_nil c)
  have hnumbered : q.Numbered := hlq.numbered ((moves_detach e c.scope).inTurn hturns)
  have hp := hl.armed_reload hrules (carries_carriedStates e c) now
  have hq := hl.armed_reload hrules (carries_nil c) now
  rw [hl.reload_eq hc, hl.load_detach_eq hc]
  have htimers (ref : RuleRef) : q.timerOf ref = p.timerOf ref := by
    rw [hdetached.timerOf_placed hgone (carries_nil c),
      hdetached.timerOf_placed hgone (carries_carriedStates e c)]
  let more (ref : RuleRef) : Prop := ∃ s rule, e.carried? c ref = some s ∧
    q.catalog.rule? ref = some rule ∧ s.isExhausted rule.fireLimit? = true
  have hstart : ∀ l ∈ timerRules c, ∀ s, p.startOf? c.scope now l = some s ↔
      q.startOf? c.scope now l = some s ∧ ¬more ⟨c.scope, l.rule.id⟩ :=
    fun l hm s => startOf?_placed_iff hrules hm s
  have hside : Alongside .none more p q :=
    ⟨fun _ _ => id, fun _ r hr => .inl ⟨_, r, hr, rfl, rfl⟩,
      fun ref _ => (htimers ref).trans (Option.map_id_fun' ▸ rfl)⟩
  obtain ⟨n, hkeeps, hjobs⟩ := hp.alongside hq rfl rfl hnumbered hside (nodup_timerRules hrules) hstart
  refine ⟨n, ?_, ?_, ?_, ?_, ?_, ?_, ?_⟩
  · exact hq.settings.trans hp.settings.symm
  · exact hq.catalog.trans hp.catalog.symm
  · exact hq.waiting.trans hp.waiting.symm
  · intro ref s hs
    have hscope : ref.scope = c.scope := by
      by_contra hne
      rw [carried?_of_ne hne] at hs
      cases hs
    have hget : p.states.get? ref = some s.carried := by
      rw [get?_placed_carried hscope, hs]
      rfl
    exact hp.get?_of_some hget
  · intro ref hnone
    refine hp.get?_eq_map hq (get?_placed_eq hnone) (hjobs.timers ref ?_)
    rintro ⟨s, -, hs, -⟩
    rw [hnone] at hs
    cases hs
  · intro k ref
    rw [hq.deferred, hp.deferred]
    exact hlq.deferred_iff hkeeps k ref
  · rw [hp.catalog]
    exact hjobs

theorem mem_starts_reload {s : Start} :
    s ∈ ((e.detach c.scope).placed c (e.carriedStates c.scope c.rules)).starts c.scope now
        (timerRules c) ↔ s.ref.scope = c.scope ∧ e.Rearms c now s.ref s.due s.interval := by
  have hstate (id : RuleId) : ((e.detach c.scope).placed c
      (e.carriedStates c.scope c.rules)).states.stateOf ⟨c.scope, id⟩ =
        ((e.carried? c ⟨c.scope, id⟩).map RuleState.carried).getD {} := stateOf_placed_carried rfl
  have hcount (id : RuleId) : (((e.carried? c ⟨c.scope, id⟩).map RuleState.carried).getD {}).fireCount =
      e.carriedCount c ⟨c.scope, id⟩ := by
    unfold carriedCount
    cases e.carried? c ⟨c.scope, id⟩ <;> rfl
  have hplain (id : RuleId) : (((e.carried? c ⟨c.scope, id⟩).map
      RuleState.carried).getD {}).enabledOverride = none := by
    cases e.carried? c ⟨c.scope, id⟩ <;> rfl
  rw [starts, List.mem_filterMap]
  constructor
  · rintro ⟨l, hl, hs⟩
    obtain ⟨r, hr, hevent, rfl⟩ := mem_timerRules.mp hl
    unfold startOf? at hs
    rw [LoadedRule.rule_ofRule, hstate, Rule.start?_eq_some_iff (hplain _),
      RuleState.isExhausted_eq_false_iff, hcount] at hs
    obtain ⟨hen, hleft, plan, hplan, hdue, hinterval, href⟩ := hs
    rw [href]
    exact ⟨rfl, r, hr, rfl, hevent, hen, hleft, plan, hplan, hdue, hinterval⟩
  · rintro ⟨hscope, r, hr, hid, hevent, hen, hleft, plan, hplan, hdue, hinterval⟩
    have href : s.ref = ⟨c.scope, r.id⟩ := by
      rw [hid, ← hscope]
    refine ⟨.ofRule r, mem_timerRules.mpr ⟨r, hr, hevent, rfl⟩, ?_⟩
    unfold startOf?
    rw [LoadedRule.rule_ofRule, hstate, Rule.start?_eq_some_iff (hplain _),
      RuleState.isExhausted_eq_false_iff, hcount]
    rw [href] at hleft
    exact ⟨hen, hleft, plan, hplan, hdue, hinterval, href⟩

theorem Linked.rearmed_reload (hl : e.Linked) (hc : e.catalog.contains c.scope = true)
    (hrules : Content.Sound c.rules) (now : Instant) : e.Rearmed c now (e.reload c now).2 := by
  have hdetached := hl.detach c.scope
  have hgone := not_contains_detach e c.scope
  have hcarries := carries_carriedStates e c
  have hp := hl.armed_reload hrules hcarries now
  have hstart {i : Nat} {s : Start} (hs : (((e.detach c.scope).placed c
      (e.carriedStates c.scope c.rules)).starts c.scope now (timerRules c))[i]? = some s) :=
    mem_starts_reload.mp (List.mem_of_getElem? hs)
  rw [hl.reload_eq hc]
  constructor
  · intro ref h r hscope hr href
    rcases Nat.lt_or_ge h (e.detach c.scope).schedule.nextHandle with hlt | hge
    · rw [hp.old h hlt] at hr
      exact absurd hscope (hdetached.scope_of_job hgone hr href)
    · obtain ⟨i, rfl⟩ := Nat.exists_eq_add_of_le hge
      obtain ⟨s, hs, rfl⟩ := Option.map_eq_some_iff.mp ((hp.new i).symm.trans hr)
      obtain rfl : s.ref = ref := Option.some.inj href
      exact ⟨⟨_, rfl⟩, (hp.timers _ (mem_refsOf_of_start hs) _).mpr ⟨i, s, hs, rfl, rfl⟩, (hstart hs).2⟩
  · intro ref due interval hscope hrearms
    have hmem := mem_starts_reload (s := ⟨ref, due, interval⟩).mpr ⟨hscope, hrearms⟩
    obtain ⟨i, hi⟩ := List.mem_iff_getElem?.mp hmem
    refine ⟨_, _, (hp.new i).trans (congrArg _ hi), rfl, rfl, rfl⟩
  · intro ref hscope hnever
    by_contra hne
    obtain ⟨h, hh⟩ := Option.ne_none_iff_exists'.mp hne
    by_cases hmem : ref ∈ refsOf c.scope (timerRules c)
    · obtain ⟨i, s, hs, rfl, -⟩ := (hp.timers ref hmem h).mp hh
      exact hnever _ _ (hstart hs).2
    · rw [timerOf, hp.stateOf_of_not_mem hmem] at hne
      exact hne (hdetached.timerOf_placed_self hgone hcarries hscope)

theorem Linked.waiting_placed (hl : e.Linked) (hc : e.catalog.contains c.scope = true)
    (carried : List (RuleRef × RuleState)) :
    ((e.detach c.scope).placed c carried).waiting = e.waiting := by
  refine SortedMap.ext_get? fun ref => (get?_waiting_placed ..).trans ?_
  split
  · rename_i hs
    cases hw : e.waiting.get? ref with
    | none => rfl
    | some r =>
      rw [← hs, (hl.waiting ref r hw).2] at hc
      cases hc
  · rfl

theorem Linked.spares_reload (hl : e.Linked) (hc : e.catalog.contains c.scope = true)
    (hrules : Content.Sound c.rules) (now : Instant) : Spares c.scope e (e.reload c now).2 := by
  have hdetached := hl.detach c.scope
  have hspares := hl.spares_detach c.scope
  have hp := hl.armed_reload hrules (carries_carriedStates e c) now
  rw [hl.reload_eq hc]
  refine ⟨hp.settings, hp.waiting.trans (hl.waiting_placed hc _), ?_, ?_, ?_, ?_⟩
  · intro s hs
    rw [hp.catalog]
    exact (Catalog.get?_insert ..).trans ((if_neg hs).trans (hspares.catalog s hs))
  · intro ref hs
    rw [hp.others ref ?_, get?_placed_of_ne (carries_carriedStates e c) hs]
    intro hm
    obtain ⟨l, -, rfl⟩ := List.mem_map.mp hm
    exact hs rfl
  · intro ref h hs
    rw [hp.deferred]
    exact hspares.deferred ref h hs
  · intro h r hr
    rw [← hspares.jobs h r hr]
    rcases Nat.lt_or_ge h (e.detach c.scope).schedule.nextHandle with hlt | hge
    · rw [hp.old h hlt]
      rfl
    · obtain ⟨i, rfl⟩ := Nat.exists_eq_add_of_le hge
      constructor
      · intro hj
        obtain ⟨s, hs, rfl⟩ := Option.map_eq_some_iff.mp ((hp.new i).symm.trans hj)
        exact absurd (mem_starts_reload.mp (List.mem_of_getElem? hs)).1 (hr s.ref rfl)
      · intro hj
        exact absurd (hdetached.issued _ _ hj).1 (Nat.not_lt.mpr hge)

theorem length_carriedStates (e : Engine) (c : Content) :
    (e.carriedStates c.scope c.rules).length = {ref | (e.carried? c ref).isSome}.ncard := by
  have hkeys : ((e.carriedStates c.scope c.rules).map Prod.fst).Nodup := by
    have hfst : (e.carriedStates c.scope c.rules).map Prod.fst =
        ((e.states.ofScope c.scope).entries.filter fun entry =>
          (e.catalog.rule? entry.1).any (·.permanent) && hasPermanent c.rules entry.1.rule).map Prod.fst := by
      rw [carriedStates, List.map_map]
      rfl
    rw [hfst]
    exact (List.filter_sublist.map _).nodup (SortedMap.nodup_keys _)
  have hset : {ref | (e.carried? c ref).isSome} =
      ↑((e.carriedStates c.scope c.rules).map Prod.fst).toFinset := by
    ext ref
    simp only [Set.mem_ofPred_eq, List.coe_toFinset, List.mem_map, Prod.exists, exists_and_right,
      exists_eq_right, mem_carriedStates_iff_carried?, Option.isSome_iff_exists]
    constructor
    · rintro ⟨t, ht⟩
      exact ⟨_, t, ht, rfl⟩
    · rintro ⟨-, t, ht, -⟩
      exact ⟨t, ht⟩
  rw [hset, Set.ncard_coe_finset, List.toFinset_card_of_nodup hkeys, List.length_map]

theorem report_install (hw : e.waitingFor c.scope = []) (carried : List (RuleRef × RuleState))
    (now : Instant) : (e.install c carried now).1 =
      { (e.install c [] now).1 with restored := carried.length } := by
  unfold waitingFor at hw
  unfold install
  simp only [hw, applyRecords, Nat.add_zero]

end Reload

/-- A reload is the same as to unload and to load, but that the counts and firing times of rules that are
permanent before and after stay. The timers start afresh, as far as those counts leave firings. -/
theorem reloading_of_reaches (h : Reaches settings ops e) (hc : e.catalog.contains c.scope = true)
    (ha : c.Authored) (now : Instant) :
    e.load c now = e.reload c now ∧
      (e.reload c now).1 = { ((e.unload c.scope).2.load c now).1 with
        restored := {ref | (e.carried? c ref).isSome}.ncard } ∧
      (∃ n, CarriesOver n (e.carried? c) (e.reload c now).2 ((e.unload c.scope).2.load c now).2) ∧
      e.Rearmed c now (e.reload c now).2 ∧ Spares c.scope e (e.reload c now).2 := by
  have hl := h.linked
  have hunload : (e.unload c.scope).2 = e.detach c.scope := by rw [unload, if_pos hc]
  rw [hunload]
  refine ⟨?_, ?_, hl.exists_carriesOver h.inTurn hc ha.sound now, hl.rearmed_reload hc ha.sound now,
    hl.spares_reload hc ha.sound now⟩
  · rw [load, if_pos hc]
  · rw [load_of_not_contains (not_contains_detach ..), ← length_carriedStates]
    exact report_install (hl.waitingFor_detach hc) _ now

def orrery : Content :=
  .ofRules (.room "orrery") [
    { Rule.plain "sun" .timer [] with timerInterval := some 60, permanent := true },
    { Rule.plain "moon" .timer [] with timerInterval := some 60, permanent := true }]

def newOrrery : Content :=
  .ofRules (.room "orrery") [
    { Rule.plain "sun" .timer [] with timerInterval := some 60, permanent := true, maxFires := 1 },
    { Rule.plain "moon" .timer [] with timerInterval := some 90 },
    { Rule.plain "star" .timer [] with timerInterval := some 90, permanent := true }]

def turning : List Operation := [.advance 9 {} 0, .load orrery 0]

theorem reloading_orrery :
    ∃ e, Reaches (.builtin 8) turning e ∧ e.carriedCount newOrrery ⟨.room "orrery", "sun"⟩ = 1 ∧
      {ref | (e.carried? newOrrery ref).isSome}.ncard = 1 ∧
      (e.reload newOrrery 70).2.pendingJobs = 2 ∧
      ((e.unload (.room "orrery")).2.load newOrrery 70).2.pendingJobs = 3 ∧
      ∃ n, CarriesOver n (e.carried? newOrrery) (e.reload newOrrery 70).2
        ((e.unload (.room "orrery")).2.load newOrrery 70).2 := by
  obtain ⟨e, h, hp⟩ := exists_reaches (.builtin 8) turning
    (fun e => e.catalog.contains (.room "orrery") &&
      e.carriedCount newOrrery ⟨.room "orrery", "sun"⟩ == 1 &&
      (e.reload newOrrery 70).1.restored == 1 && (e.reload newOrrery 70).2.pendingJobs == 2 &&
      ((e.unload (.room "orrery")).2.load newOrrery 70).2.pendingJobs == 3)
    (by simp [turning, Operation.Authored, orrery, Content.Authored.ofRules]) (by decide +kernel)
  simp only [Bool.and_eq_true, beq_iff_eq] at hp
  obtain ⟨⟨⟨⟨hc, hcount⟩, hrestored⟩, hjobs⟩, hplain⟩ := hp
  obtain ⟨-, hreport, hcarries, -⟩ := reloading_of_reaches (c := newOrrery) h hc (.ofRules ..) 70
  rw [hreport] at hrestored
  exact ⟨e, h, hcount, hrestored, hjobs, hplain, hcarries⟩

end WorldTriggers.Engine
