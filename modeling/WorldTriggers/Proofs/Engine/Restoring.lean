import WorldTriggers.Proofs.Engine.Relabelling

namespace WorldTriggers.Engine

variable {e e' d : Engine} {c : Content} {ref : RuleRef} {now : Instant} {r : Record}
  {records rest : List Record}

def accepts (e : Engine) (r : Record) : Bool := (e.catalog.rule? r.ref).any (·.permanent)

def exhausts (e : Engine) (r : Record) : Bool :=
  (e.catalog.rule? r.ref).any fun rule =>
    rule.permanent && RuleState.isExhausted { fireCount := r.fireCount } rule.fireLimit?

def afterRecord (e : Engine) (r : Record) : RuleState :=
  { (e.states.stateOf r.ref).restore r with
    timer := if e.exhausts r then none else e.timerOf r.ref }

def stops (e : Engine) (records : List Record) (h : Handle) : Bool :=
  records.any fun r => e.exhausts r && e.timerOf r.ref == some h

structure Recovered (records : List Record) (e e' : Engine) : Prop where
  settings : e'.settings = e.settings
  catalog : e'.catalog = e.catalog
  deferred : e'.deferred = e.deferred
  nextHandle : e'.schedule.nextHandle = e.schedule.nextHandle
  nextTurn : e'.schedule.nextTurn = e.schedule.nextTurn
  jobs : ∀ h, e'.job? h = if e.stops records h then none else e.job? h
  states : ∀ r ∈ records, e.accepts r = true → e'.states.get? r.ref = some (e.afterRecord r)
  others : ∀ ref, (∀ r ∈ records, e.accepts r = true → r.ref ≠ ref) →
    e'.states.get? ref = e.states.get? ref
  waits : ∀ r ∈ records, e.catalog.contains r.scope = false → e'.waiting.get? r.ref = some r
  waiting : ∀ ref, (∀ r ∈ records, e.catalog.contains r.scope = false → r.ref ≠ ref) →
    e'.waiting.get? ref = e.waiting.get? ref

theorem accepts_congr (h : e'.catalog = e.catalog) (r : Record) : e'.accepts r = e.accepts r := by
  unfold accepts
  rw [h]

theorem exhausts_congr (h : e'.catalog = e.catalog) (r : Record) : e'.exhausts r = e.exhausts r := by
  unfold exhausts
  rw [h]

theorem accepts_of_exhausts (h : e.exhausts r = true) : e.accepts r = true := by
  unfold exhausts at h
  unfold accepts
  obtain ⟨rule, hrule, hboth⟩ := (Option.any_eq_true _ _).mp h
  exact (Option.any_eq_true _ _).mpr ⟨rule, hrule, (Bool.and_eq_true_iff.mp hboth).1⟩

theorem exhausts_of_not_accepts (h : e.accepts r = false) : e.exhausts r = false := by
  by_contra hex
  rw [accepts_of_exhausts (Bool.eq_true_of_not_eq_false hex)] at h
  cases h

theorem contains_of_accepts (h : e.accepts r = true) : e.catalog.contains r.scope = true := by
  obtain ⟨rule, hrule, -⟩ := (Option.any_eq_true _ _).mp h
  exact Catalog.contains_of_rule? hrule

theorem not_accepts_of_not_contains (h : e.catalog.contains r.scope = false) :
    e.accepts r = false := by
  refine Bool.eq_false_of_not_eq_true fun ha => ?_
  rw [contains_of_accepts ha] at h
  cases h

theorem stops_eq_true_iff {h : Handle} : e.stops records h = true ↔
    ∃ r ∈ records, e.exhausts r = true ∧ e.timerOf r.ref = some h := by
  simp only [stops, List.any_eq_true, Bool.and_eq_true, beq_iff_eq]

theorem stops_singleton (e : Engine) (r : Record) (h : Handle) :
    e.stops [r] h = (e.exhausts r && e.timerOf r.ref == some h) := Bool.or_false _

theorem applyRecord_of_accepts (ha : e.accepts r = true) : (e.applyRecord r).2 =
    if e.exhausts r then disarmTimer { e with states := e.states.update r.ref (·.restore r) } r.ref
    else { e with states := e.states.update r.ref (·.restore r) } := by
  obtain ⟨rule, hr, hp⟩ := (Option.any_eq_true _ _).mp ha
  have hexhausts : e.exhausts r =
      ((e.states.stateOf r.ref).restore r).isExhausted rule.fireLimit? := by
    unfold exhausts
    rw [hr, Option.any_some, hp, Bool.true_and]
    rfl
  rcases applyRecord_cases e r with ⟨hnot, -⟩ | ⟨rule', hr', -, hcases⟩
  · rw [hnot rule hr] at hp
    cases hp
  · obtain rfl := Option.some.inj (hr.symm.trans hr')
    rw [hexhausts]
    rcases hcases with ⟨hex, h⟩ | ⟨hex, h⟩ <;> rw [h, hex] <;> rfl

theorem get?_applyRecord (ha : e.accepts r = true) (ref : RuleRef) :
    (e.applyRecord r).2.states.get? ref =
      if ref = r.ref then some (e.afterRecord r) else e.states.get? ref := by
  have hrestored := RuleStates.get?_update e.states r.ref (·.restore r) ref
  rw [applyRecord_of_accepts ha, afterRecord]
  cases e.exhausts r with
  | true =>
    have hdisarmed := RuleStates.get?_update (e.states.update r.ref (·.restore r)) r.ref
      (fun s => { s with timer := none }) ref
    rw [RuleStates.stateOf_update_self] at hdisarmed
    refine hdisarmed.trans ?_
    split
    · rfl
    · exact hrestored.trans (if_neg ‹_›)
  | false => exact hrestored

theorem job?_applyRecord (ha : e.accepts r = true) (h : Handle) :
    (e.applyRecord r).2.job? h = if e.stops [r] h then none else e.job? h := by
  rw [applyRecord_of_accepts ha, stops_singleton]
  cases e.exhausts r with
  | true =>
    have htimer : timerOf { e with states := e.states.update r.ref (·.restore r) } r.ref =
        e.timerOf r.ref := by
      rw [timerOf_update, if_pos rfl]
      rfl
    rw [if_pos rfl, job?_disarmTimer, htimer, Bool.true_and]
    simp only [beq_iff_eq]
    rfl
  | false => rfl

namespace Recovered

theorem nil (e : Engine) : Recovered [] e e := by
  refine ⟨rfl, rfl, rfl, rfl, rfl, fun _ => rfl, ?_, fun _ _ => rfl, ?_, fun _ _ => rfl⟩ <;>
    exact fun _ hr => nomatch hr

theorem stateOf (h : Recovered records e e')
    (hn : ∀ r ∈ records, e.accepts r = true → r.ref ≠ ref) :
    e'.states.stateOf ref = e.states.stateOf ref := by
  unfold RuleStates.stateOf
  rw [h.others ref hn]

theorem ignored (hn : e.accepts r = false) : Recovered [r] e
    { e with waiting := if e.catalog.contains r.scope then e.waiting else e.waiting.insert r.ref r } := by
  refine ⟨rfl, rfl, rfl, rfl, rfl, fun h => ?_, fun q hq ha => ?_, fun _ _ => rfl, fun q hq hnot => ?_,
    fun ref href => ?_⟩
  · rw [stops_singleton, exhausts_of_not_accepts hn]
    rfl
  · obtain rfl := List.mem_singleton.mp hq
    rw [hn] at ha
    cases ha
  · obtain rfl := List.mem_singleton.mp hq
    rw [hnot]
    exact SortedMap.get?_insert_self ..
  · cases hc : e.catalog.contains r.scope with
    | true => rfl
    | false =>
      have hne : ref ≠ r.ref := (href r (List.mem_singleton_self r) hc).symm
      exact (SortedMap.get?_insert ..).trans (if_neg hne)

theorem applied (ha : e.accepts r = true) : Recovered [r] e (e.applyRecord r).2 := by
  have hother {ref : RuleRef} (hn : ∀ q ∈ [r], e.accepts q = true → q.ref ≠ ref) : ref ≠ r.ref :=
    (hn r (List.mem_singleton_self r) ha).symm
  have hloaded {q : Record} (hq : q ∈ [r]) (hnot : e.catalog.contains q.scope = false) : False := by
    obtain rfl := List.mem_singleton.mp hq
    rw [contains_of_accepts ha] at hnot
    cases hnot
  refine ⟨?_, catalog_applyRecord .., ?_, ?_, ?_, job?_applyRecord ha, fun q hq _ => ?_, fun ref hn => ?_,
    fun q hq hnot => (hloaded hq hnot).elim, fun _ _ => ?_⟩
  · rw [applyRecord_of_accepts ha]
    split <;> rfl
  · rw [applyRecord_of_accepts ha]
    split <;> rfl
  · rw [applyRecord_of_accepts ha]
    split
    · exact nextHandle_disarmTimer ..
    · rfl
  · rw [applyRecord_of_accepts ha]
    unfold disarmTimer
    split
    · dsimp only
      split <;> rfl
    · rfl
  · obtain rfl := List.mem_singleton.mp hq
    exact (get?_applyRecord ha _).trans (if_pos rfl)
  · exact (get?_applyRecord ha ref).trans (if_neg (hother hn))
  · rw [applyRecord_of_accepts ha]
    split <;> rfl

theorem one (e : Engine) (r : Record) : Recovered [r] e (e.restoreOne r).2 := by
  unfold restoreOne
  cases hc : e.catalog.contains r.scope with
  | true =>
    rw [if_pos rfl]
    cases ha : e.accepts r with
    | true => exact applied ha
    | false =>
      have hsame := ignored ha
      rw [hc, if_pos rfl] at hsame
      rcases applyRecord_cases e r with ⟨-, h⟩ | ⟨rule, hr, hp, -⟩
      · rwa [h]
      · rw [accepts, hr, Option.any_some, hp] at ha
        cases ha
  | false =>
    have hparked := ignored (not_accepts_of_not_contains hc)
    rw [hc] at hparked
    exact hparked

theorem append (h : Recovered records e d) (h' : Recovered rest d e')
    (hn : ∀ r ∈ records, ∀ q ∈ rest, r.ref ≠ q.ref) : Recovered (records ++ rest) e e' := by
  have hstate {q : Record} (hq : q ∈ rest) : d.states.stateOf q.ref = e.states.stateOf q.ref :=
    h.stateOf fun r hr _ => hn r hr q hq
  have hafter {q : Record} (hq : q ∈ rest) : d.afterRecord q = e.afterRecord q := by
    rw [afterRecord, afterRecord, exhausts_congr h.catalog, timerOf, timerOf, hstate hq]
  refine ⟨h'.settings.trans h.settings, h'.catalog.trans h.catalog, h'.deferred.trans h.deferred,
    h'.nextHandle.trans h.nextHandle, h'.nextTurn.trans h.nextTurn, fun k => ?_, fun q hq ha => ?_,
    fun ref hno => ?_, fun q hq hnot => ?_, fun ref hno => ?_⟩
  · have hrest : d.stops rest k = e.stops rest k := by
      rw [Bool.eq_iff_iff, stops_eq_true_iff, stops_eq_true_iff]
      refine exists_congr fun q => and_congr_right fun hq => ?_
      rw [exhausts_congr h.catalog, timerOf, timerOf, hstate hq]
    have hboth : e.stops (records ++ rest) k = (e.stops records k || e.stops rest k) :=
      List.any_append
    rw [h'.jobs, hrest, h.jobs, hboth]
    cases e.stops records k <;> cases e.stops rest k <;> rfl
  · rcases List.mem_append.mp hq with hq | hq
    · rw [h'.others q.ref fun k hk _ => (hn q hq k hk).symm, h.states q hq ha]
    · rw [h'.states q hq (by rwa [accepts_congr h.catalog]), hafter hq]
  · rw [h'.others ref fun q hq ha => ?_, h.others ref fun q hq => hno q (List.mem_append_left _ hq)]
    rw [accepts_congr h.catalog] at ha
    exact hno q (List.mem_append_right _ hq) ha
  · rcases List.mem_append.mp hq with hq | hq
    · rw [h'.waiting q.ref fun k hk _ => (hn q hq k hk).symm, h.waits q hq hnot]
    · exact h'.waits q hq (by rwa [h.catalog])
  · rw [h'.waiting ref fun q hq hnot => ?_, h.waiting ref fun q hq => hno q (List.mem_append_left _ hq)]
    rw [h.catalog] at hnot
    exact hno q (List.mem_append_right _ hq) hnot

theorem congr (h : Recovered records e d) (hmem : ∀ r, r ∈ records ↔ r ∈ rest) :
    Recovered rest e d := by
  refine
    { h with
      jobs := fun k => ?_
      states := fun r hr => h.states r ((hmem r).mpr hr)
      others := fun ref hno => h.others ref fun r hr => hno r ((hmem r).mp hr)
      waits := fun r hr => h.waits r ((hmem r).mpr hr)
      waiting := fun ref hno => h.waiting ref fun r hr => hno r ((hmem r).mp hr) }
  have hstops : e.stops rest k = e.stops records k := by
    rw [Bool.eq_iff_iff, stops_eq_true_iff, stops_eq_true_iff]
    exact exists_congr fun r => and_congr_left fun _ => (hmem r).symm
  rw [hstops]
  exact h.jobs k

theorem waiting_eq {f f' : Engine} (h : Recovered records e d) (h' : Recovered records f f')
    (hcatalog : f.catalog = e.catalog) (hwaiting : f.waiting = e.waiting) : f'.waiting = d.waiting := by
  refine SortedMap.ext_get? fun ref => ?_
  by_cases hex : ∃ r ∈ records, e.catalog.contains r.scope = false ∧ r.ref = ref
  · obtain ⟨r, hr, hnot, rfl⟩ := hex
    rw [h.waits r hr hnot, h'.waits r hr (by rwa [hcatalog])]
  · rw [h.waiting ref fun r hr hnot href => hex ⟨r, hr, hnot, href⟩,
      h'.waiting ref fun r hr hnot href => hex ⟨r, hr, by rwa [← hcatalog], href⟩, hwaiting]

theorem unique (h : Recovered records e d) (h' : Recovered records e e') : d = e' := by
  have hstates : d.states = e'.states := by
    refine SortedMap.ext_get? fun ref => ?_
    by_cases hex : ∃ r ∈ records, e.accepts r = true ∧ r.ref = ref
    · obtain ⟨r, hr, ha, rfl⟩ := hex
      rw [h.states r hr ha, h'.states r hr ha]
    · rw [h.others ref fun r hr ha href => hex ⟨r, hr, ha, href⟩,
        h'.others ref fun r hr ha href => hex ⟨r, hr, ha, href⟩]
  have hjobs : d.schedule.jobs = e'.schedule.jobs :=
    SortedMap.ext_get? fun k => (h.jobs k).trans (h'.jobs k).symm
  have hschedule : d.schedule = e'.schedule := by
    have hhandle := h.nextHandle.trans h'.nextHandle.symm
    have hturn := h.nextTurn.trans h'.nextTurn.symm
    cases hs : d.schedule
    cases hs' : e'.schedule
    simp_all
  have hwaiting := h'.waiting_eq h rfl rfl
  have hsettings := h.settings.trans h'.settings.symm
  have hcatalog := h.catalog.trans h'.catalog.symm
  have hdeferred := h.deferred.trans h'.deferred.symm
  cases d
  cases e'
  simp_all

end Recovered

theorem recovered_restore (hnodup : (records.map Record.ref).Nodup) (e : Engine) :
    Recovered records e (e.restore records).2 := by
  induction records generalizing e with
  | nil => exact .nil e
  | cons r rest ih =>
    obtain ⟨hr, hrest⟩ := List.nodup_cons.mp hnodup
    refine (Recovered.one e r).append (ih hrest _) fun k hk q hq href => hr ?_
    obtain rfl := List.mem_singleton.mp hk
    exact href ▸ List.mem_map_of_mem hq

theorem applied_restoreOne (e : Engine) (r : Record) : (e.restoreOne r).1 = e.accepts r := by
  unfold restoreOne applyRecord accepts
  cases hc : e.catalog.contains r.scope with
  | false =>
    rw [Catalog.rule?_eq_none_of_not_contains hc]
    rfl
  | true =>
    rw [if_pos rfl]
    cases e.catalog.rule? r.ref with
    | none => rfl
    | some rule =>
      rw [Option.any_some]
      cases hp : rule.permanent with
      | false => simp [hp]
      | true =>
        simp only [hp, if_true]
        split <;> rfl

theorem applied_restore (e : Engine) (records : List Record) :
    (e.restore records).1 = records.countP e.accepts := by
  induction records generalizing e with
  | nil => rfl
  | cons r rest ih =>
    have hsame : (e.restoreOne r).2.accepts = e.accepts :=
      funext fun q => accepts_congr (catalog_restoreOne e r) q
    have hcons : (e.restore (r :: rest)).1 =
        (if (e.restoreOne r).1 then 1 else 0) + ((e.restoreOne r).2.restore rest).1 := rfl
    rw [hcons, ih, hsame, applied_restoreOne, List.countP_cons, Nat.add_comm]

theorem restore_perm {records' : List Record} (hnodup : (records.map Record.ref).Nodup)
    (h : records'.Perm records) (e : Engine) : e.restore records' = e.restore records := by
  have hnodup' : (records'.map Record.ref).Nodup := (h.map _).nodup_iff.mpr hnodup
  refine Prod.ext ?_ ?_
  · rw [applied_restore, applied_restore, h.countP_eq]
  · exact ((recovered_restore hnodup' e).congr fun _ => h.mem_iff).unique (recovered_restore hnodup e)

end WorldTriggers.Engine
