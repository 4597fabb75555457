import WorldTriggers.Proofs.Engine.Operation

namespace WorldTriggers.Engine

variable {e : Engine}

structure Bookkeeping (e : Engine) : Prop where
  states : ∀ ref, (e.states.get? ref).isSome → ∃ rule, e.catalog.rule? ref = some rule
  timers : ∀ h r ref epoch, e.job? h = some r → r.payload = .ruleTimer ref epoch →
    e.catalog.epoch? ref.scope = some epoch ∧ e.WantsTimer ref ∧ e.timerOf ref = some h
  single : ∀ h k r q ref epoch epoch', e.job? h = some r → e.job? k = some q →
    r.payload = .ruleTimer ref epoch → q.payload = .ruleTimer ref epoch' → h = k
  deferred : ∀ h ref, e.deferred.get? h = some ref ↔
    ∃ r c, e.job? h = some r ∧ r.payload = .continuation c ∧ c.firing.ref = ref
  continuations : ∀ h r c, e.job? h = some r → r.payload = .continuation c →
    e.catalog.epoch? c.firing.scope = some c.firing.epoch ∧
      e.catalog.rule? c.firing.ref = some c.firing.rule ∧
      c.next < c.firing.rule.actions.length
  /-- No scope with waiting records is loaded, so that no rule is exported twice. -/
  waiting : ∀ ref record, e.waiting.get? ref = some record →
    record.ref = ref ∧ e.catalog.contains ref.scope = false
  exported : (e.exported.map Record.ref).Nodup

section Exported

theorem ref_snapshot (states : RuleStates) (ref : RuleRef) :
    (RuleStates.snapshot states ref).ref = ref := rfl

def permanentRefs (scope : Scope) (i : Installation) : List RuleRef :=
  (i.rules.filter (·.rule.permanent)).map fun l => ⟨scope, l.rule.id⟩

theorem map_ref_exported (e : Engine) : e.exported.map Record.ref =
    (e.catalog.scopes.entries.flatMap fun p => permanentRefs p.1 p.2) ++
      e.waiting.values.map Record.ref := by
  simp [exported, permanentRefs, List.map_flatMap, Function.comp_def, ref_snapshot]

theorem nodup_permanentRefs (hl : e.Linked) :
    (e.catalog.scopes.entries.flatMap fun p => permanentRefs p.1 p.2).Nodup := by
  rw [List.nodup_flatMap]
  constructor
  · rintro ⟨scope, i⟩ hp
    have hi : e.catalog.get? scope = some i := SortedMap.get?_eq_some_iff.mpr hp
    have hids := (hl.catalog scope i hi).distinct
    rw [List.map_map] at hids
    have hperm := hids.sublist ((List.filter_sublist (p := (·.rule.permanent))).map _)
    refine List.Nodup.of_map RuleRef.rule ?_
    rwa [permanentRefs, List.map_map]
  · refine e.catalog.scopes.sorted.imp fun {p q} hpq => ?_
    intro ref hp hq
    obtain ⟨l, -, rfl⟩ := List.mem_map.mp hp
    obtain ⟨m, -, hm⟩ := List.mem_map.mp hq
    have hs : q.1 = p.1 := congrArg RuleRef.scope hm
    simp [hs] at hpq

theorem map_ref_waiting (hl : e.Linked) : e.waiting.values.map Record.ref = e.waiting.keys := by
  rw [SortedMap.values, SortedMap.keys, List.map_map]
  refine List.map_congr_left fun p hp => ?_
  exact (hl.waiting p.1 p.2 (SortedMap.get?_eq_some_iff.mpr hp)).1

theorem Linked.nodup_exported (hl : e.Linked) : (e.exported.map Record.ref).Nodup := by
  rw [map_ref_exported, map_ref_waiting hl, List.nodup_append]
  refine ⟨nodup_permanentRefs hl, e.waiting.nodup_keys, ?_⟩
  rintro ref hinstalled k hwaits rfl
  obtain ⟨p, hp, hm⟩ := List.mem_flatMap.mp hinstalled
  obtain ⟨l, -, rfl⟩ := List.mem_map.mp hm
  obtain ⟨q, hq, hk⟩ := List.mem_map.mp hwaits
  have hloaded : e.catalog.get? p.1 = some p.2 := SortedMap.get?_eq_some_iff.mpr hp
  have hnot := (hl.waiting q.1 q.2 (SortedMap.get?_eq_some_iff.mpr hq)).2
  rw [hk, Catalog.contains_eq] at hnot
  simp [hloaded] at hnot

end Exported

theorem bookkeeping_of_linked (hl : e.Linked) (hv : e.Live) : e.Bookkeeping where
  states ref hs := Option.isSome_iff_exists.mp (hl.states ref hs)
  timers h r ref epoch hj hp := by
    have hf := hl.fits h r hj
    simp only [Fits, hp] at hf
    obtain ⟨rule, plan, ht, -, -, htimer⟩ := hf
    exact ⟨(target?_eq_some_iff.mp ht).1, hv h r ref epoch hj hp, htimer⟩
  single h k r q ref epoch epoch' hj hk hp hq := hl.timer_unique hj hk hp hq
  deferred h ref := by
    refine ⟨hl.deferred h ref, ?_⟩
    rintro ⟨r, c, hj, hp, rfl⟩
    have hf := hl.fits h r hj
    simp only [Fits, hp] at hf
    exact hf.2.2.2
  continuations h r c hj hp := by
    have hf := hl.fits h r hj
    simp only [Fits, hp] at hf
    obtain ⟨hinstalled, hlt, -⟩ := hf
    have ht := target?_eq_some_iff.mp hinstalled
    exact ⟨ht.1, ht.2, hlt⟩
  waiting := hl.waiting
  exported := hl.nodup_exported

/-- The books agree after any sequence of operations. -/
theorem bookkeeping_of_reaches {settings : Settings} {ops : List Operation}
    (h : Reaches settings ops e) : e.Bookkeeping :=
  bookkeeping_of_linked h.linked h.live

def alarmed : Content :=
  .ofRules (.room "cellar") [
    .plain "alarm" .enter [⟨"message_room", .empty, 5⟩],
    { Rule.plain "drip" .timer [] with timerInterval := some 60 }]

theorem bookkeeping_alarmed :
    ∃ e, Reaches (.builtin 8) [.fireRule {} ⟨.room "cellar", "alarm"⟩ {} 0, .load alarmed 0] e ∧
      e.pendingJobs = 2 ∧ e.Bookkeeping := by
  obtain ⟨e, h, hjobs⟩ := exists_reaches (.builtin 8)
    [.fireRule {} ⟨.room "cellar", "alarm"⟩ {} 0, .load alarmed 0] (·.pendingJobs == 2)
    (by simp [Operation.Authored, alarmed, Content.Authored.ofRules]) (by decide +kernel)
  exact ⟨e, h, by simpa using hjobs, bookkeeping_of_reaches h⟩

end WorldTriggers.Engine
