import WorldTriggers.Proofs.Engine.TimerKept

namespace WorldTriggers.Engine

variable {e e' : Engine} {ref : RuleRef} {now : Instant}

section Records

def UsesUp (e : Engine) (ref : RuleRef) (r : Record) : Prop :=
  r.ref = ref ∧ ∃ rule n, e.catalog.rule? ref = some rule ∧ rule.permanent = true ∧
    rule.fireLimit? = some n ∧ n ≤ r.fireCount

/-- Records that leave a rule in want of its timer although it had no firings left before, or after
one of them. -/
def GivesFiringsBack (e : Engine) (records : List Record) (ref : RuleRef) : Prop :=
  (e.restore records).2.WantsTimer ref ∧ (¬e.WantsTimer ref ∨ ∃ r ∈ records, e.UsesUp ref r)

theorem UsesUp.congr {r : Record} (h : e.UsesUp ref r) (hcat : e'.catalog = e.catalog) :
    e'.UsesUp ref r := by
  obtain ⟨href, rule, n, hr, hrest⟩ := h
  exact ⟨href, rule, n, hcat ▸ hr, hrest⟩

theorem TimerKept.applyRecord_of_ne {r : Record} (hl : e.Linked) (hk : e.TimerKept ref)
    (hne : ref ≠ r.ref) : (e.applyRecord r).2.TimerKept ref := by
  rcases applyRecord_cases e r with ⟨-, h⟩ | ⟨rule, hr, -, ⟨-, h⟩ | ⟨-, h⟩⟩ <;> rw [h]
  · exact hk
  · exact (hk.update_of_ne hne).disarmTimer_of_ne (hl.update (by simp [hr]) rfl) hne
  · exact hk.update_of_ne hne

theorem applyRecord_timer {r : Record} (hl : e.Linked) (hh : e.Held ref) :
    (e.applyRecord r).2.Held ref ∧
      (e.UsesUp ref r → (e.applyRecord r).2.timerOf ref = none) ∧
      (¬e.UsesUp ref r → (e.applyRecord r).2.timerOf ref = e.timerOf ref) := by
  have hupdate (k : RuleRef) :
      timerOf { e with states := e.states.update r.ref (·.restore r) } k = e.timerOf k := by
    rw [timerOf_update]
    split
    · subst k
      rfl
    · rfl
  rcases applyRecord_cases e r with ⟨hnot, h⟩ | ⟨rule, hr, hperm, ⟨hex, h⟩ | ⟨hex, h⟩⟩ <;> rw [h]
  · refine ⟨hh, ?_, fun _ => rfl⟩
    rintro ⟨rfl, rule, n, hr, hperm, -⟩
    simp [hnot rule hr] at hperm
  · by_cases href : ref = r.ref
    · subst ref
      obtain ⟨n, hlimit, hle⟩ := RuleState.isExhausted_eq_true_iff.mp hex
      have hnone : (disarmTimer { e with states := e.states.update r.ref (·.restore r) }
          r.ref).timerOf r.ref = none := by rw [timerOf_disarmTimer, if_pos rfl]
      refine ⟨fun k hk => ?_, fun _ => hnone, fun hn => ?_⟩
      · rw [hnone] at hk
        cases hk
      · exact absurd ⟨rfl, rule, n, hr, hperm, hlimit, hle⟩ hn
    · have hsame : (disarmTimer { e with states := e.states.update r.ref (·.restore r) }
          r.ref).timerOf ref = e.timerOf ref := by rw [timerOf_disarmTimer, if_neg href, hupdate]
      refine ⟨fun k hk => ?_, fun hu => absurd hu.1.symm href, fun _ => hsame⟩
      rw [hsame] at hk
      obtain ⟨q, epoch, hq, hp⟩ := hh k hk
      refine ⟨q, epoch, ?_, hp⟩
      rw [job?_disarmTimer, hupdate, if_neg]
      · exact hq
      · intro hk'
        exact href (hl.eq_of_timerOf hk' hk hq).symm
  · refine ⟨fun k hk => hh k (by rwa [hupdate] at hk), ?_, fun _ => hupdate ref⟩
    rintro ⟨rfl, rule', n, hr', -, hlimit, hle⟩
    obtain rfl : rule = rule' := Option.some.inj (hr.symm.trans hr')
    have hdone : ((e.states.stateOf r.ref).restore r).isExhausted rule.fireLimit? = true :=
      RuleState.isExhausted_eq_true_iff.mpr ⟨n, hlimit, hle⟩
    rw [hex] at hdone
    cases hdone

theorem restoreOne_timer {r : Record} (hl : e.Linked) (hh : e.Held ref) :
    (e.restoreOne r).2.Held ref ∧
      (e.UsesUp ref r → (e.restoreOne r).2.timerOf ref = none) ∧
      (¬e.UsesUp ref r → (e.restoreOne r).2.timerOf ref = e.timerOf ref) := by
  unfold restoreOne
  split
  · exact applyRecord_timer hl hh
  · rename_i hc
    refine ⟨hh, ?_, fun _ => rfl⟩
    rintro ⟨rfl, rule, n, hr, -⟩
    exact absurd (Catalog.contains_of_rule? hr) hc

theorem restore_timer (hl : e.Linked) (hh : e.Held ref) (records : List Record) :
    (e.restore records).2.Held ref ∧
      ((∃ r ∈ records, e.UsesUp ref r) → (e.restore records).2.timerOf ref = none) ∧
      ((∀ r ∈ records, ¬e.UsesUp ref r) → (e.restore records).2.timerOf ref = e.timerOf ref) := by
  induction records generalizing e with
  | nil => exact ⟨hh, by simp, fun _ => rfl⟩
  | cons r rest ih =>
    obtain ⟨hheld, hused, hnot⟩ := restoreOne_timer (r := r) hl hh
    have hcat := catalog_restoreOne e r
    obtain ⟨ihheld, ihused, ihnot⟩ := ih (hl.restoreOne r) hheld
    have hiff (q : Record) : (e.restoreOne r).2.UsesUp ref q ↔ e.UsesUp ref q :=
      ⟨fun h => h.congr hcat.symm, fun h => h.congr hcat⟩
    simp only [hiff] at ihused ihnot
    refine ⟨ihheld, ?_, ?_⟩
    · intro hex
      -- Once a record has used the rule up, no later one starts its timer.
      by_cases hrest : ∃ q ∈ rest, e.UsesUp ref q
      · exact ihused hrest
      · have hr : e.UsesUp ref r := by
          obtain ⟨q, hq, hu⟩ := hex
          rcases List.mem_cons.mp hq with rfl | hq
          · exact hu
          · exact absurd ⟨q, hq, hu⟩ hrest
        push Not at hrest
        exact (ihnot hrest).trans (hused hr)
    · intro hall
      obtain ⟨hr, hrest⟩ := List.forall_mem_cons.mp hall
      exact (ihnot hrest).trans (hnot hr)

theorem TimerKept.restore_iff (hl : e.Linked) (hv : e.Live) (hk : e.TimerKept ref)
    (records : List Record) :
    (e.restore records).2.TimerKept ref ↔ ¬e.GivesFiringsBack records ref := by
  obtain ⟨hheld, hused, hnot⟩ := restore_timer hl hk.held records
  have hruns : (e.timerOf ref).isSome → e.WantsTimer ref := by
    intro hs
    obtain ⟨h, hh⟩ := Option.isSome_iff_exists.mp hs
    obtain ⟨r, epoch, hr, hp⟩ := hk.held h hh
    exact hv h r ref epoch hr hp
  constructor
  · rintro hkept ⟨hwants, hbefore⟩
    have hsome := hkept.running hwants
    by_cases hu : ∃ r ∈ records, e.UsesUp ref r
    · simp [hused hu] at hsome
    · rcases hbefore with hb | hb
      · push Not at hu
        rw [hnot hu] at hsome
        exact hb (hruns hsome)
      · exact hu hb
  · intro hn
    refine ⟨fun hwants => ?_, hheld⟩
    have hno : ∀ r ∈ records, ¬e.UsesUp ref r := fun r hr hu => hn ⟨hwants, .inr ⟨r, hr, hu⟩⟩
    have hbefore : e.WantsTimer ref := by
      by_contra hb
      exact hn ⟨hwants, .inl hb⟩
    rw [hnot hno]
    exact hk.running hbefore

end Records

section Installing

variable {c : Content} {carried : List (RuleRef × RuleState)} {scope : Scope}

theorem TimerKept.detach (hl : e.Linked) (hk : e.TimerKept ref) (scope : Scope) :
    (e.detach scope).TimerKept ref := by
  by_cases hs : ref.scope = scope
  · refine timerKept_of_none (by rw [timerOf_detach, if_pos hs]) ?_
    rintro ⟨rule, hr, -⟩
    rw [rule?_detach, if_pos hs] at hr
    cases hr
  · refine hk.frame (by rw [timerOf_detach, if_neg hs]) (fun hw => hw.congr ?_ ?_) fun h r ht hr => ?_
    · rw [rule?_detach, if_neg hs]
    · exact ((RuleStates.stateOf_withoutScope ..).trans (if_neg hs)).symm
    · refine ⟨r, ?_, rfl⟩
      rw [job?_detach, if_neg]
      · exact hl.job?_cancelDeferred_of_timerOf ht hr _
      · intro hm
        obtain ⟨k, hks, hkt⟩ := mem_timersOf.mp hm
        exact hs (hl.eq_of_timerOf hkt ht hr ▸ hks)

theorem timerKept_armEach {i : Installation} {ls : List LoadedRule} (hl : e.Linked)
    (hi : e.catalog.get? ref.scope = some i) (hls : ∀ l ∈ ls, l ∈ i.rules)
    (hstarts : e.Starts ref now) (hh : e.Held ref)
    (hmem : e.WantsTimer ref → (∃ l ∈ ls, l.rule.id = ref.rule) ∨ e.TimerKept ref) :
    (e.armEach ref.scope i.epoch now ls).TimerKept ref := by
  induction ls generalizing e with
  | nil =>
    refine ⟨fun hw => ?_, hh⟩
    rcases hmem hw with ⟨l, hl, -⟩ | hk
    · cases hl
    · exact hk.running hw
  | cons l rest ih =>
    have hcat : (e.armTimer ref.scope i.epoch l.rule now).catalog = e.catalog := catalog_armTimer ..
    have ht : e.target? ⟨ref.scope, l.rule.id⟩ = some (i.epoch, l.rule) := by
      rw [target?_eq_some_iff, Catalog.epoch?, hi]
      exact ⟨rfl, hl.catalog.rule?_of_mem hi (hls l List.mem_cons_self)⟩
    have hstarts' : (e.armTimer ref.scope i.epoch l.rule now).Starts ref now :=
      hstarts.congr (by rw [hcat])
    refine ih (hl.armTimer ht now) (by rwa [hcat]) (fun l hl => hls l (List.mem_cons_of_mem _ hl))
      hstarts' ?_ ?_
    · by_cases href : ref = ⟨ref.scope, l.rule.id⟩
      · exact (hh.armTimer hl href (by rw [href]; exact ht) hstarts).held
      · exact hh.armTimer_of_ne hl href
    · intro hw
      by_cases href : ref = ⟨ref.scope, l.rule.id⟩
      · exact .inr (hh.armTimer hl href (by rw [href]; exact ht) hstarts)
      · rcases hmem (wantsTimer_armTimer.mp hw) with ⟨m, hm, hid⟩ | hk
        · rcases List.mem_cons.mp hm with rfl | hm
          · exact absurd (by rw [hid]) href
          · exact .inl ⟨m, hm, hid⟩
        · exact .inr (hk.armTimer hl ht hstarts)

theorem Linked.mem_waitingFor_iff (hl : e.Linked) {r : Record} :
    r ∈ e.waitingFor scope ↔ e.waiting.get? r.ref = some r ∧ r.ref.scope = scope := by
  unfold waitingFor
  simp only [SortedMap.mem_values, SortedMap.get?_filter, Option.filter_eq_some_iff,
    decide_eq_true_eq]
  constructor
  · rintro ⟨k, hk, hs⟩
    obtain ⟨rfl, -⟩ := hl.waiting k r hk
    exact ⟨hk, hs⟩
  · exact fun h => ⟨r.ref, h⟩

theorem TimerKept.install_of_ne (hl : e.Linked) (hk : e.TimerKept ref) (hs : ref.scope ≠ c.scope)
    (hc : e.catalog.contains c.scope = false) (hrules : Content.Sound c.rules)
    (hcarries : Carries c carried) (hstarts : (e.placed c carried).Starts ref now) :
    (e.install c carried now).2.TimerKept ref := by
  have hplaced : (e.placed c carried).TimerKept ref :=
    hk.frame (hl.timerOf_placed hc hcarries ref)
      (fun hw => hw.congr (rule?_placed_of_ne hs).symm (stateOf_placed_of_ne hcarries hs).symm)
      fun _ r _ hr => ⟨r, hr, rfl⟩
  -- The waiting records and the timers that are started are those of the new scope.
  have hall : (e.install c carried now).2.Linked ∧ (e.install c carried now).2.TimerKept ref ∧
      (e.install c carried now).2.Starts ref now :=
    install_induct (motive := fun e' => e'.Linked ∧ e'.TimerKept ref ∧ e'.Starts ref now) hrules
      hl.catalog ⟨hl.placed hc hrules hcarries, hplaced, hstarts⟩
      (fun e' r hr ⟨hl', hk', hs'⟩ => ⟨hl'.applyRecord r,
        hk'.applyRecord_of_ne hl' fun href => hs (href ▸ (hl.mem_waitingFor_iff.mp hr).2),
        hs'.congr (by rw [catalog_applyRecord])⟩)
      fun e' r _ ht ⟨hl', hk', hs'⟩ => ⟨hl'.armTimer ht now, hk'.armTimer hl' ht hs',
        hs'.congr (by rw [catalog_armTimer])⟩
  exact hall.2.1

theorem timerKept_install (hl : e.Linked) (hs : ref.scope = c.scope)
    (hc : e.catalog.contains c.scope = false) (hrules : Content.Sound c.rules)
    (hcarries : Carries c carried) (hstarts : (e.placed c carried).Starts ref now) :
    (e.install c carried now).2.TimerKept ref := by
  have hnone : (e.placed c carried).timerOf ref = none := by
    rw [hl.timerOf_placed hc hcarries, hl.timerOf_of_not_contains (by rw [hs]; exact hc)]
  have hcat := catalog_applyRecords (e.placed c carried) (e.waitingFor c.scope)
  have hget := get?_placed e c carried
  rw [← hcat, ← hs] at hget
  have hrecords : ((e.placed c carried).applyRecords (e.waitingFor c.scope)).2.Linked ∧
      ((e.placed c carried).applyRecords (e.waitingFor c.scope)).2.timerOf ref = none := by
    refine applyRecords_induct (motive := fun e' => e'.Linked ∧ e'.timerOf ref = none) _ ?_
      ⟨hl.placed hc hrules hcarries, hnone⟩
    rintro e' r - ⟨hl', hnone'⟩
    have hheld : e'.Held ref := by
      intro h hh
      rw [hnone'] at hh
      cases hh
    obtain ⟨-, hused, hnot⟩ := applyRecord_timer (r := r) hl' hheld
    refine ⟨hl'.applyRecord r, ?_⟩
    by_cases hu : e'.UsesUp ref r
    · exact hused hu
    · exact (hnot hu).trans hnone'
  obtain ⟨hl', hnone'⟩ := hrecords
  rw [install_eq, ← hs] at *
  rw [armTimers_eq hget]
  refine timerKept_armEach hl' hget (fun l hl => (List.mem_filter.mp hl).1)
    (hstarts.congr (by rw [hcat])) ?_ ?_
  · intro h hh
    rw [hnone'] at hh
    cases hh
  · rintro ⟨rule, hr, htimer, -⟩
    obtain ⟨i, l, hi, hl, rfl⟩ := Catalog.rule?_eq_some_iff.mp hr
    obtain rfl := Option.some.inj (hget.symm.trans hi)
    refine .inl ⟨l, List.mem_filter.mpr ⟨List.mem_of_find?_eq_some hl, by simpa using htimer⟩, ?_⟩
    simpa using List.find?_some hl

theorem TimerKept.install (hl : e.Linked) (hk : e.TimerKept ref)
    (hc : e.catalog.contains c.scope = false) (hrules : Content.Sound c.rules)
    (hcarries : Carries c carried)
    (hstarts : (e.install c carried now).2.Starts ref now) :
    (e.install c carried now).2.TimerKept ref := by
  have hplaced : (e.placed c carried).Starts ref now :=
    hstarts.congr (by rw [catalog_install hrules hl.catalog])
  by_cases hs : ref.scope = c.scope
  · exact timerKept_install hl hs hc hrules hcarries hplaced
  · exact hk.install_of_ne hl hs hc hrules hcarries hplaced

theorem TimerKept.reload (hl : e.Linked) (hk : e.TimerKept ref) (hrules : Content.Sound c.rules)
    (hstarts : (e.reload c now).2.Starts ref now) : (e.reload c now).2.TimerKept ref :=
  (hk.detach hl c.scope).install (hl.detach c.scope) (not_contains_detach ..) hrules
    (carries_carriedStates e c) hstarts

theorem TimerKept.load (hl : e.Linked) (hk : e.TimerKept ref) (hrules : Content.Sound c.rules)
    (hstarts : (e.load c now).2.Starts ref now) : (e.load c now).2.TimerKept ref := by
  rcases load_eq_install e c now with ⟨h, hc⟩ | h <;> rw [h] at hstarts ⊢
  · exact hk.install hl hc hrules (carries_nil c) hstarts
  · exact hk.reload hl hrules hstarts

end Installing

end WorldTriggers.Engine
