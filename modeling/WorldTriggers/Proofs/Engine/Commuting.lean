import WorldTriggers.Proofs.Engine.Bookkeeping
import WorldTriggers.Proofs.Engine.Restoring
import WorldTriggers.Proofs.Engine.TimersRestored

/-!
Records restored before a scope is loaded, or after. In the one order they wait and are applied before the
timers start; in the other they stop the timers of rules that they exhaust. It comes to the same.
-/

namespace WorldTriggers.Engine

variable {n : Relabelling} {e e' d : Engine} {c : Content} {ref : RuleRef} {now : Instant} {r : Record}
  {records : List Record} {settings : Settings} {ops : List Operation}

structure Renumbered (n : Relabelling) (d f : Engine) : Prop where
  settings : f.settings = d.settings
  catalog : f.catalog = d.catalog
  waiting : f.waiting = d.waiting
  states : ∀ ref, f.states.get? ref = (d.states.get? ref).map n.state
  deferred : ∀ k ref, f.deferred.get? k = some ref ↔
    ∃ h, d.deferred.get? h = some ref ∧ k = n.handle h
  jobs : ∀ k q, f.job? k = some q ↔ ∃ h r, d.job? h = some r ∧ k = n.handle h ∧ q = n.registration r

section Parked

theorem Linked.restore (hl : e.Linked) (records : List Record) : (e.restore records).2.Linked :=
  restore_induct (motive := Linked) records (fun _ r h => h.restoreOne r) hl

theorem Linked.nodup_waitingFor (hl : e.Linked) (scope : Scope) :
    ((e.waitingFor scope).map Record.ref).Nodup := by
  have hsub : (e.waitingFor scope).Sublist e.waiting.values := List.filter_sublist.map _
  have hnodup := e.waiting.nodup_keys
  rw [← map_ref_waiting hl] at hnodup
  exact (hsub.map _).nodup hnodup

theorem applyRecords_eq_restore (h : ∀ r ∈ records, e.catalog.contains r.scope = true) :
    e.applyRecords records = e.restore records := by
  induction records generalizing e with
  | nil => rfl
  | cons r rest ih =>
    obtain ⟨hr, hrest⟩ := List.forall_mem_cons.mp h
    have hone : e.restoreOne r = e.applyRecord r := by rw [restoreOne, if_pos hr]
    have hsame := ih (e := (e.applyRecord r).2) fun q hq => by
      rw [catalog_applyRecord]
      exact hrest q hq
    unfold applyRecords restore
    rw [hone]
    simp only [hsame]

theorem accepts_placed_of_ne (hs : r.scope ≠ c.scope) : (e.placed c []).accepts r = e.accepts r := by
  unfold accepts
  rw [rule?_placed_of_ne (show r.ref.scope ≠ c.scope from hs)]

theorem exhausts_placed_of_ne (hs : r.scope ≠ c.scope) : (e.placed c []).exhausts r = e.exhausts r := by
  unfold exhausts
  rw [rule?_placed_of_ne (show r.ref.scope ≠ c.scope from hs)]

theorem contains_placed_of_ne {scope : Scope} (hs : scope ≠ c.scope) :
    (e.placed c []).catalog.contains scope = e.catalog.contains scope := by
  refine (Catalog.contains_insert ..).trans ?_
  rw [decide_eq_false hs, Bool.false_or]

theorem contains_placed_self : (e.placed c []).catalog.contains c.scope = true := by
  refine (Catalog.contains_insert ..).trans ?_
  rw [decide_eq_true rfl, Bool.true_or]

theorem scope_ne_of_accepts (hc : e.catalog.contains c.scope = false) (ha : e.accepts r = true) :
    r.scope ≠ c.scope := by
  intro hs
  rw [← hs, contains_of_accepts ha] at hc
  cases hc

theorem Linked.stops_placed (hl : e.Linked) (hc : e.catalog.contains c.scope = false)
    (records : List Record) (k : Handle) :
    (e.placed c []).stops (records.filter (·.scope ≠ c.scope)) k = e.stops records k := by
  rw [Bool.eq_iff_iff, stops_eq_true_iff, stops_eq_true_iff]
  refine exists_congr fun r => ?_
  rw [List.mem_filter, hl.timerOf_placed hc (carries_nil c)]
  constructor
  · rintro ⟨⟨hr, hs⟩, hex, ht⟩
    rw [exhausts_placed_of_ne (by simpa using hs)] at hex
    exact ⟨hr, hex, ht⟩
  · rintro ⟨hr, hex, ht⟩
    have hs : r.scope ≠ c.scope := scope_ne_of_accepts hc (accepts_of_exhausts hex)
    exact ⟨⟨hr, by simpa using hs⟩, by rwa [exhausts_placed_of_ne hs], ht⟩

theorem Linked.recovered_others (hl : e.Linked) (hc : e.catalog.contains c.scope = false)
    (hd : Recovered records e d) :
    Recovered (records.filter (·.scope ≠ c.scope)) (e.placed c []) (d.placed c []) := by
  have hmem {r : Record} : r ∈ records.filter (·.scope ≠ c.scope) ↔ r ∈ records ∧ r.scope ≠ c.scope := by
    simp
  refine ⟨hd.settings, congrArg (fun catalog : Catalog => (catalog.insert c.scope c.rules).2.2) hd.catalog,
    hd.deferred, hd.nextHandle, hd.nextTurn, fun k => ?_, fun r hr ha => ?_, fun ref hno => ?_,
    fun r hr hnot => ?_, fun ref hno => ?_⟩
  · rw [hl.stops_placed hc]
    exact hd.jobs k
  · obtain ⟨hr, hs⟩ := hmem.mp hr
    rw [accepts_placed_of_ne hs] at ha
    refine (hd.states r hr ha).trans ?_
    rw [afterRecord, afterRecord, exhausts_placed_of_ne hs, hl.timerOf_placed hc (carries_nil c)]
    rfl
  · refine hd.others ref fun r hr ha => ?_
    have hs := scope_ne_of_accepts hc ha
    exact hno r (hmem.mpr ⟨hr, hs⟩) (by rwa [accepts_placed_of_ne hs])
  · obtain ⟨hr, hs⟩ := hmem.mp hr
    rw [contains_placed_of_ne hs] at hnot
    exact (get?_waiting_placed ..).trans ((if_neg hs).trans (hd.waits r hr hnot))
  · rw [get?_waiting_placed, get?_waiting_placed]
    split
    · rfl
    · rename_i hscope
      refine hd.waiting ref fun r hr hnot href => ?_
      have hs : r.scope ≠ c.scope := fun hs => hscope (href ▸ hs)
      exact hno r (hmem.mpr ⟨hr, hs⟩) (by rwa [contains_placed_of_ne hs]) href

theorem Linked.mem_waitingFor_restore (hl : e.Linked) (hc : e.catalog.contains c.scope = false)
    (hw : e.waitingFor c.scope = []) (hnodup : (records.map Record.ref).Nodup) :
    r ∈ (e.restore records).2.waitingFor c.scope ↔ r ∈ records ∧ r.scope = c.scope := by
  have hd := recovered_restore hnodup e
  rw [(hl.restore records).mem_waitingFor_iff]
  refine and_congr_left fun hs => ⟨fun hget => ?_, fun hr => hd.waits r hr ?_⟩
  · by_contra hr
    have hold := hd.waiting r.ref fun q hq hnot href => by
      have hq' := hd.waits q hq hnot
      rw [href, hget] at hq'
      exact hr (Option.some.inj hq' ▸ hq)
    have hmem : r ∈ e.waitingFor c.scope := hl.mem_waitingFor_iff.mpr ⟨hold.symm.trans hget, hs⟩
    rw [hw] at hmem
    cases hmem
  · rw [show r.scope = c.scope from hs, hc]

theorem Linked.recovered_placed (hl : e.Linked) (hc : e.catalog.contains c.scope = false)
    (hw : e.waitingFor c.scope = []) (hnodup : (records.map Record.ref).Nodup) :
    Recovered records (e.placed c []) (((e.restore records).2.placed c []).applyRecords
      ((e.restore records).2.waitingFor c.scope)).2 := by
  let d := (e.restore records).2
  have hwaits {r : Record} : r ∈ d.waitingFor c.scope ↔ r ∈ records ∧ r.scope = c.scope :=
    hl.mem_waitingFor_restore hc hw hnodup
  have hloaded : ∀ r ∈ d.waitingFor c.scope, (d.placed c []).catalog.contains r.scope = true := by
    intro r hr
    rw [(hwaits.mp hr).2]
    exact contains_placed_self
  have hothers := hl.recovered_others hc (recovered_restore hnodup e)
  have hparked := recovered_restore ((hl.restore records).nodup_waitingFor c.scope) (d.placed c [])
  rw [applyRecords_eq_restore hloaded]
  refine (hothers.append hparked fun r hr q hq href => ?_).congr fun r => ?_
  · have hs : r.scope ≠ c.scope := by simpa using (List.mem_filter.mp hr).2
    exact hs ((congrArg RuleRef.scope href).trans (hwaits.mp hq).2)
  · rw [List.mem_append, List.mem_filter, hwaits, ← and_or_left]
    simp [em']

theorem Linked.restore_then_load (hl : e.Linked) (hc : e.catalog.contains c.scope = false)
    (hw : e.waitingFor c.scope = []) (hnodup : (records.map Record.ref).Nodup) (now : Instant) :
    ((e.restore records).2.load c now).2 = ((e.placed c []).restore records).2.armEach c.scope
      (e.catalog.lastEpoch + 1) now (timerRules c) := by
  have hcatalog : (e.restore records).2.catalog = e.catalog := catalog_restore e records
  have hsame := (hl.recovered_placed hc hw hnodup).unique (recovered_restore hnodup _)
  have hget := get?_placed (e.restore records).2 c []
  rw [← catalog_applyRecords ((e.restore records).2.placed c []) ((e.restore records).2.waitingFor c.scope),
    hsame] at hget
  rw [load_of_not_contains (by rwa [hcatalog]), install_eq, hsame, armTimers_eq hget, hcatalog]
  rfl

theorem load_eq_armEach (hc : e.catalog.contains c.scope = false)
    (hw : e.waitingFor c.scope = []) (now : Instant) : (e.load c now).2 =
      (e.placed c []).armEach c.scope (e.catalog.lastEpoch + 1) now (timerRules c) := by
  rw [load_of_not_contains hc]
  exact install_of_none_waiting hw now

end Parked

section Armed

variable {p P F : Engine} {scope : Scope} {epoch : Nat} {ls : List LoadedRule}

theorem Recovered.timerOf (h : Recovered records p P)
    (hleft : ∀ r ∈ records, r.ref = ref → p.exhausts r = false) : P.timerOf ref = p.timerOf ref := by
  by_cases hex : ∃ r ∈ records, p.accepts r = true ∧ r.ref = ref
  · obtain ⟨r, hr, ha, rfl⟩ := hex
    have hstate := RuleStates.stateOf_of_get? (h.states r hr ha)
    rw [Engine.timerOf, hstate, afterRecord, hleft r hr rfl]
    rfl
  · rw [Engine.timerOf, h.stateOf fun r hr ha href => hex ⟨r, hr, ha, href⟩]
    rfl

theorem Recovered.timerOf_eq_none (h : Recovered records p P) (hn : p.timerOf ref = none) :
    P.timerOf ref = none := by
  by_cases hex : ∃ r ∈ records, p.accepts r = true ∧ r.ref = ref
  · obtain ⟨r, hr, ha, rfl⟩ := hex
    rw [Engine.timerOf, RuleStates.stateOf_of_get? (h.states r hr ha), afterRecord, hn]
    split <;> rfl
  · rw [Engine.timerOf, h.stateOf fun r hr ha href => hex ⟨r, hr, ha, href⟩]
    exact hn

theorem isExhausted_afterRecord {rule : Rule} (hrule : p.catalog.rule? r.ref = some rule)
    (ha : p.accepts r = true) : (p.afterRecord r).isExhausted rule.fireLimit? = p.exhausts r := by
  have hperm : rule.permanent = true := by
    unfold accepts at ha
    rwa [hrule] at ha
  unfold exhausts
  rw [hrule, Option.any_some, hperm, Bool.true_and]
  rfl

theorem Recovered.startOf?_iff {l : LoadedRule} {s : Start} (h : Recovered records p P)
    (hnodup : (records.map Record.ref).Nodup) (hfresh : p.states.stateOf ⟨scope, l.rule.id⟩ = {})
    (hrule : p.catalog.rule? ⟨scope, l.rule.id⟩ = some l.rule) :
    P.startOf? scope now l = some s ↔ p.startOf? scope now l = some s ∧
      ¬∃ r ∈ records, r.ref = ⟨scope, l.rule.id⟩ ∧ p.exhausts r = true := by
  unfold startOf?
  by_cases hex : ∃ r ∈ records, p.accepts r = true ∧ r.ref = ⟨scope, l.rule.id⟩
  · obtain ⟨r, hr, ha, href⟩ := hex
    have hstate := RuleStates.stateOf_of_get? (h.states r hr ha)
    have hplain : (p.afterRecord r).enabledOverride = none := by
      have hdefault : (p.states.stateOf r.ref).enabledOverride = none := by
        rw [href, hfresh]
      exact hdefault
    rw [← href] at hrule hfresh ⊢
    rw [hstate, hfresh, Rule.start?_iff_default hplain, isExhausted_afterRecord hrule ha]
    refine and_congr_right fun _ => ⟨?_, fun hn => ?_⟩
    · rintro hleft ⟨q, hq, hqr, hqex⟩
      obtain rfl := List.inj_on_of_nodup_map hnodup hq hr hqr
      rw [hqex] at hleft
      cases hleft
    · exact Bool.eq_false_of_not_eq_true fun hrex => hn ⟨r, hr, rfl, hrex⟩
  · rw [h.stateOf fun r hr ha href => hex ⟨r, hr, ha, href⟩]
    refine (and_iff_left ?_).symm
    rintro ⟨r, hr, href, hrex⟩
    exact hex ⟨r, hr, accepts_of_exhausts hrex, href⟩

theorem Recovered.alongside (h : Recovered records p P) (hl : p.Linked) :
    Alongside .none (fun ref => ∃ r ∈ records, r.ref = ref ∧ p.exhausts r = true) P p := by
  refine ⟨fun k q hq => ?_, fun k q hq => ?_, fun ref hleft => ?_⟩
  · rw [h.jobs] at hq
    split at hq
    · cases hq
    · exact hq
  · cases hstops : p.stops records k with
    | true =>
      obtain ⟨r, hr, hex, ht⟩ := stops_eq_true_iff.mp hstops
      obtain ⟨epoch, hp⟩ := (hl.timers r.ref k ht).2 q hq
      exact .inr ⟨r.ref, epoch, hp, r, hr, rfl, hex⟩
    | false =>
      refine .inl ⟨k, q, ?_, rfl, rfl⟩
      rw [h.jobs, hstops, ← hq]
      rfl
  · have hsame : P.timerOf ref = p.timerOf ref := h.timerOf fun r hr href =>
      Bool.eq_false_of_not_eq_true fun hex => hleft ⟨r, hr, href, hex⟩
    rw [hsame]
    exact Option.map_id_fun' ▸ rfl

theorem Armed.stateOf (h : Armed scope epoch now ls p F) (ref : RuleRef) :
    F.states.stateOf ref = { p.states.stateOf ref with timer := F.timerOf ref } := by
  by_cases hmem : ref ∈ refsOf scope ls
  · exact RuleStates.stateOf_of_get? (h.states ref hmem)
  · rw [Engine.timerOf, h.stateOf_of_not_mem hmem]

theorem Linked.timerOf_of_job {k : Handle} {q : Registration Job} (hl : e.Linked)
    (hq : e.job? k = some q) (hp : q.payload = .ruleTimer ref epoch) : e.timerOf ref = some k := by
  have hfits := hl.fits k q hq
  unfold Fits at hfits
  rw [hp] at hfits
  obtain ⟨_, _, _, _, _, ht⟩ := hfits
  exact ht

section Renumbered

variable {f : Engine} (hF : Armed scope epoch now ls p F) (hf : Recovered records F f)
  (hside : Alongside n (fun ref => ∃ r ∈ records, r.ref = ref ∧ p.exhausts r = true) d F)
  (hgone : ∀ r ∈ records, p.exhausts r = true → d.timerOf r.ref = none)
include hF hf hside hgone

theorem Recovered.get?_renumbered (hP : Recovered records p P) (hd : Armed scope epoch now ls P d)
    (hnodup : (records.map Record.ref).Nodup) (ref : RuleRef) :
    f.states.get? ref = (d.states.get? ref).map n.state := by
  by_cases hex : ∃ r ∈ records, p.accepts r = true ∧ r.ref = ref
  · obtain ⟨r, hr, ha, rfl⟩ := hex
    rw [hf.states r hr (by rwa [accepts_congr hF.catalog]), hd.get?_of_some (hP.states r hr ha),
      afterRecord, hF.stateOf, exhausts_congr hF.catalog]
    -- The timer is gone in both engines, or it is the same one.
    have htimer : (if p.exhausts r then none else F.timerOf r.ref) =
        (d.timerOf r.ref).map n.handle := by
      split
      · rename_i hrex
        rw [hgone r hr hrex]
        rfl
      · rename_i hrex
        refine hside.timers r.ref ?_
        rintro ⟨q, hq, hqr, hqex⟩
        obtain rfl := List.inj_on_of_nodup_map hnodup hq hr hqr
        exact hrex hqex
    rw [htimer]
    rfl
  · have hleft : ¬∃ r ∈ records, r.ref = ref ∧ p.exhausts r = true := by
      rintro ⟨r, hr, href, hrex⟩
      exact hex ⟨r, hr, accepts_of_exhausts hrex, href⟩
    rw [hf.others ref fun r hr ha href => hex ⟨r, hr, by rwa [← accepts_congr hF.catalog], href⟩]
    exact hd.get?_eq_map hF (hP.others ref fun r hr ha href => hex ⟨r, hr, ha, href⟩)
      (hside.timers ref hleft)

theorem Recovered.job?_renumbered (hld : d.Linked) (hlF : F.Linked) (k : Handle)
    (q : Registration Job) : f.job? k = some q ↔
      ∃ h r, d.job? h = some r ∧ k = n.handle h ∧ q = n.registration r := by
  have hexhausts (r : Record) : F.exhausts r = p.exhausts r := exhausts_congr hF.catalog r
  rw [hf.jobs]
  constructor
  · intro hq
    split at hq
    · cases hq
    · rename_i hstops
      rcases hside.only k q hq with hfrom | ⟨ref, epoch', hp, r, hr, rfl, hrex⟩
      · exact hfrom
      · have hstopped : F.stops records k = true :=
          stops_eq_true_iff.mpr ⟨r, hr, by rwa [hexhausts], hlF.timerOf_of_job hq hp⟩
        exact absurd hstopped hstops
  · rintro ⟨h, r, hr, rfl, rfl⟩
    have hhas := hside.has h r hr
    rw [if_neg, hhas]
    intro hstops
    obtain ⟨q, hq, hqex, ht⟩ := stops_eq_true_iff.mp hstops
    obtain ⟨epoch', hp⟩ := (hlF.timers q.ref _ ht).2 _ hhas
    have hown : d.timerOf q.ref = some h := hld.timerOf_of_job hr hp
    rw [hgone q hq (by rwa [← hexhausts])] at hown
    cases hown

theorem Recovered.renumbered (hP : Recovered records p P) (hd : Armed scope epoch now ls P d)
    (hlp : p.Linked) (hld : d.Linked) (hlF : F.Linked) (hkeeps : n.Keeps p)
    (hnodup : (records.map Record.ref).Nodup) : Renumbered n d f where
  settings := by rw [hf.settings, hF.settings, hd.settings, hP.settings]
  catalog := by rw [hf.catalog, hF.catalog, hd.catalog, hP.catalog]
  waiting := (hP.waiting_eq hf hF.catalog hF.waiting).trans hd.waiting.symm
  states := hf.get?_renumbered hF hside hgone hP hd hnodup
  deferred k ref := by
    rw [hf.deferred, hF.deferred, hd.deferred, hP.deferred]
    exact hlp.deferred_iff hkeeps k ref
  jobs := hf.job?_renumbered hF hside hgone hld hlF

end Renumbered

theorem Recovered.timerOf_exhausted (hP : Recovered records p P) (hd : Armed scope epoch now ls P d)
    (hstart : ∀ l ∈ ls, ∀ s, P.startOf? scope now l = some s →
      ¬∃ r ∈ records, r.ref = ⟨scope, l.rule.id⟩ ∧ p.exhausts r = true)
    (hr : r ∈ records) (hex : p.exhausts r = true) : d.timerOf r.ref = none := by
  by_contra hne
  obtain ⟨k, hk⟩ := Option.ne_none_iff_exists'.mp hne
  by_cases hmem : r.ref ∈ refsOf scope ls
  · obtain ⟨i, s, hs, href, -⟩ := (hd.timers r.ref hmem k).mp hk
    obtain ⟨l, hl, hls⟩ := List.mem_filterMap.mp (List.mem_of_getElem? hs)
    exact hstart l hl s hls ⟨r, hr, href.symm.trans (Rule.ref_of_start? hls), hex⟩
  · have hstate := RuleStates.stateOf_of_get? (hP.states r hr (accepts_of_exhausts hex))
    rw [Engine.timerOf, hd.stateOf_of_not_mem hmem, hstate, afterRecord, hex] at hk
    cases hk

end Armed

theorem Linked.exists_renumbered (hl : e.Linked) (hturns : e.schedule.InTurn)
    (hc : e.catalog.contains c.scope = false) (hw : e.waitingFor c.scope = [])
    (hrules : Content.Sound c.rules) (hnodup : (records.map Record.ref).Nodup) (now : Instant) :
    ∃ n, Renumbered n ((e.restore records).2.load c now).2 ((e.load c now).2.restore records).2 := by
  let p := e.placed c []
  let P := (p.restore records).2
  have hlp : p.Linked := hl.placed hc hrules (carries_nil c)
  have hlP : P.Linked := hlp.restore records
  have hP : Recovered records p P := recovered_restore hnodup p
  have hidle {ref : RuleRef} (hs : ref.scope = c.scope) : p.timerOf ref = none :=
    hl.timerOf_placed_self hc (carries_nil c) hs
  have hF := hlp.armed hrules (fun _ => hidle) (e.catalog.lastEpoch + 1) now
  have hd := hlP.armed hrules (fun _ hs => hP.timerOf_eq_none (hidle hs)) (e.catalog.lastEpoch + 1) now
  have hstart : ∀ l ∈ timerRules c, ∀ s, P.startOf? c.scope now l = some s ↔
      p.startOf? c.scope now l = some s ∧
        ¬∃ r ∈ records, r.ref = ⟨c.scope, l.rule.id⟩ ∧ p.exhausts r = true := by
    intro l hm s
    obtain ⟨r, hr, -, rfl⟩ := mem_timerRules.mp hm
    refine hP.startOf?_iff hnodup (RuleStates.stateOf_of_get?_none ?_) ?_
    · exact hl.get?_states_of_not_contains hc
    · exact (Catalog.rule?_insert_self ..).trans (hrules.find?_of_mem hr)
  obtain ⟨n, hkeeps, hside⟩ := hd.alongside hF hP.nextHandle hP.nextTurn
    (hlp.numbered hturns) (hP.alongside hlp) (nodup_timerRules hrules) hstart
  have hthen := hl.restore_then_load hc hw hnodup now
  have hfirst := load_eq_armEach hc hw now
  have hld := (hl.restore records).load hrules now
  have hlF := hl.load hrules now
  rw [hthen] at hld ⊢
  rw [hfirst] at hlF ⊢
  have hf := recovered_restore hnodup (p.armEach c.scope (e.catalog.lastEpoch + 1) now (timerRules c))
  have hgone : ∀ r ∈ records, p.exhausts r = true → Engine.timerOf _ r.ref = none := fun r hr hex =>
    hP.timerOf_exhausted hd (fun l hl s hs => ((hstart l hl s).mp hs).2) hr hex
  exact ⟨n, hf.renumbered hF hside hgone hP hd hlp hld hlF hkeeps hnodup⟩

/-- To restore records and to load a scope for which none wait come to the same in either order, and so
do the records among themselves. -/
theorem restoring_of_reaches (h : Reaches settings ops e) (hc : e.catalog.contains c.scope = false)
    (hw : ∀ ref, ref.scope = c.scope → e.waiting.get? ref = none) (ha : c.Authored)
    (hnodup : (records.map Record.ref).Nodup) (now : Instant) :
    (∃ n, Renumbered n ((e.restore records).2.load c now).2 ((e.load c now).2.restore records).2) ∧
      ∀ records', records'.Perm records → ∀ d : Engine, d.restore records' = d.restore records := by
  have hl := h.linked
  have hnone : e.waitingFor c.scope = [] := by
    refine List.eq_nil_iff_forall_not_mem.mpr fun r hr => ?_
    obtain ⟨hget, hs⟩ := hl.mem_waitingFor_iff.mp hr
    rw [hw r.ref hs] at hget
    cases hget
  exact ⟨hl.exists_renumbered h.inTurn hc hnone ha.sound hnodup now,
    fun _ hperm d => restore_perm hnodup hperm d⟩

def attic : Content :=
  .ofRules (.room "attic") [
    { Rule.plain "rocker" .timer [] with timerInterval := some 60, permanent := true, maxFires := 2 }]

def clockwork : Content :=
  .ofRules (.room "clock") [
    { Rule.plain "chime" .timer [] with timerInterval := some 60, permanent := true, maxFires := 3 },
    { Rule.plain "pendulum" .timer [] with timerInterval := some 60 },
    { Rule.plain "key" .enter [] with permanent := true }]

def keepsakes : List Record :=
  [⟨"rocker", .room "attic", 2, none⟩, ⟨"chime", .room "clock", 3, none⟩,
    ⟨"pendulum", .room "clock", 1, none⟩, ⟨"key", .room "clock", 1, none⟩,
    ⟨"bird", .room "clock", 1, none⟩, ⟨"bat", .room "cave", 1, none⟩]

theorem restoring_clockwork :
    ∃ e n, Reaches (.builtin 8) [.load attic 0] e ∧
      ((e.restore keepsakes).2.load clockwork 10).2.pendingJobs = 1 ∧
      (e.load clockwork 10).2.pendingJobs = 3 ∧
      Renumbered n ((e.restore keepsakes).2.load clockwork 10).2
        ((e.load clockwork 10).2.restore keepsakes).2 ∧
      e.restore keepsakes.reverse = e.restore keepsakes := by
  obtain ⟨e, h, hp⟩ := exists_reaches (.builtin 8) [.load attic 0]
    (fun e => !e.catalog.contains (.room "clock") && e.waiting.isEmpty &&
      ((e.restore keepsakes).2.load clockwork 10).2.pendingJobs == 1 &&
      (e.load clockwork 10).2.pendingJobs == 3)
    (by simp [Operation.Authored, attic, Content.Authored.ofRules]) (by decide +kernel)
  simp only [Bool.and_eq_true, beq_iff_eq, Bool.not_eq_true'] at hp
  obtain ⟨⟨⟨hc, hempty⟩, hjobs⟩, hall⟩ := hp
  have hwaiting : ∀ ref, ref.scope = clockwork.scope → e.waiting.get? ref = none := by
    intro ref _
    rw [SortedMap.get?, List.isEmpty_iff.mp hempty]
    rfl
  obtain ⟨⟨n, hn⟩, hperm⟩ := restoring_of_reaches (c := clockwork) h hc hwaiting (.ofRules ..)
    (show (keepsakes.map Record.ref).Nodup by decide) 10
  exact ⟨e, n, h, hjobs, hall, hn, hperm _ keepsakes.reverse_perm e⟩

end WorldTriggers.Engine
