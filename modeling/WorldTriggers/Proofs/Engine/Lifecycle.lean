import WorldTriggers.Proofs.Engine.Advance

namespace WorldTriggers.Engine

variable {e e' : Engine} {ref : RuleRef} {scope : Scope} {now : Instant}

section Records

theorem applyRecord_cases (e : Engine) (r : Record) :
    (∀ rule, e.catalog.rule? r.ref = some rule → rule.permanent = false) ∧
        (e.applyRecord r).2 = e ∨
      ∃ rule, e.catalog.rule? r.ref = some rule ∧ rule.permanent = true ∧
        (((e.states.stateOf r.ref).restore r).isExhausted rule.fireLimit? = true ∧
            (e.applyRecord r).2 =
              disarmTimer { e with states := e.states.update r.ref (·.restore r) } r.ref ∨
          ((e.states.stateOf r.ref).restore r).isExhausted rule.fireLimit? = false ∧
            (e.applyRecord r).2 = { e with states := e.states.update r.ref (·.restore r) }) := by
  unfold applyRecord
  cases hr : e.catalog.rule? r.ref with
  | none => exact .inl ⟨by simp, rfl⟩
  | some rule =>
    cases hp : rule.permanent with
    | false => exact .inl (by simp [hp])
    | true =>
      refine .inr ⟨rule, rfl, hp, ?_⟩
      simp only [hp, if_true, RuleStates.stateOf_update_self]
      split
      · exact .inl ⟨‹_›, rfl⟩
      · exact .inr ⟨Bool.eq_false_of_not_eq_true ‹_›, rfl⟩

theorem catalog_applyRecord (e : Engine) (r : Record) :
    (e.applyRecord r).2.catalog = e.catalog := by
  rcases applyRecord_cases e r with ⟨_, h⟩ | ⟨_, _, _, ⟨_, h⟩ | ⟨_, h⟩⟩
  · rw [h]
  · rw [h]
    rfl
  · rw [h]

theorem settings_applyRecord (e : Engine) (r : Record) :
    (e.applyRecord r).2.settings = e.settings := by
  rcases applyRecord_cases e r with ⟨_, h⟩ | ⟨_, _, _, ⟨_, h⟩ | ⟨_, h⟩⟩
  · rw [h]
  · rw [h]
    rfl
  · rw [h]

theorem waiting_applyRecord (e : Engine) (r : Record) :
    (e.applyRecord r).2.waiting = e.waiting := by
  rcases applyRecord_cases e r with ⟨_, h⟩ | ⟨_, _, _, ⟨_, h⟩ | ⟨_, h⟩⟩
  · rw [h]
  · rw [h]
    rfl
  · rw [h]

theorem Linked.applyRecord (hl : e.Linked) (r : Record) : (e.applyRecord r).2.Linked := by
  rcases applyRecord_cases e r with ⟨-, h⟩ | ⟨rule, hr, -, ⟨-, h⟩ | ⟨-, h⟩⟩ <;> rw [h]
  · exact hl
  · exact (hl.update (by simp [hr]) rfl).disarmTimer (by simp [hr])
  · exact hl.update (by simp [hr]) rfl

theorem Live.applyRecord (hl : e.Linked) (hv : e.Live) (r : Record) :
    (e.applyRecord r).2.Live := by
  rcases applyRecord_cases e r with ⟨-, h⟩ | ⟨rule, hr, -, ⟨-, h⟩ | ⟨hex, h⟩⟩ <;> rw [h]
  · exact hv
  · exact Live.disarmTimer_update hl hv rfl
  · refine hv.mono fun k q ref _ hq hp => ⟨⟨q, hq, hp⟩, ?_⟩
    rintro ⟨rule', hr', ht, hen, hex'⟩
    by_cases hk : ref = r.ref
    · subst hk
      obtain rfl : rule = rule' := Option.some.inj (hr.symm.trans hr')
      refine ⟨rule, hr, ht, ?_, ?_⟩ <;> rw [RuleStates.stateOf_update_self]
      · exact hen
      · exact hex
    · exact WantsTimer.congr ⟨rule', hr', ht, hen, hex'⟩ rfl (RuleStates.stateOf_update_of_ne _ _ hk)

theorem applyRecords_induct {motive : Engine → Prop} (records : List Record)
    (hstep : ∀ e, ∀ r ∈ records, motive e → motive (e.applyRecord r).2)
    (hm : motive e) : motive (e.applyRecords records).2 := by
  induction records generalizing e with
  | nil => exact hm
  | cons r rest ih =>
    exact ih (fun e q hq => hstep e q (List.mem_cons_of_mem _ hq)) (hstep e r List.mem_cons_self hm)

theorem restore_induct {motive : Engine → Prop} (records : List Record)
    (hstep : ∀ e r, motive e → motive (e.restoreOne r).2)
    (hm : motive e) : motive (e.restore records).2 := by
  induction records generalizing e with
  | nil => exact hm
  | cons r rest ih => exact ih (hstep e r hm)

theorem Linked.restoreOne (hl : e.Linked) (r : Record) : (e.restoreOne r).2.Linked := by
  unfold Engine.restoreOne
  split
  · exact hl.applyRecord r
  · refine { hl with waiting := ?_ }
    intro ref record hw
    rw [SortedMap.get?_insert] at hw
    split at hw
    · subst ref
      cases hw
      exact ⟨rfl, Bool.eq_false_of_not_eq_true ‹_›⟩
    · exact hl.waiting ref record hw

theorem Live.restoreOne (hl : e.Linked) (hv : e.Live) (r : Record) : (e.restoreOne r).2.Live := by
  unfold Engine.restoreOne
  split
  · exact hv.applyRecord hl r
  · exact hv

theorem catalog_restoreOne (e : Engine) (r : Record) : (e.restoreOne r).2.catalog = e.catalog := by
  unfold restoreOne
  split
  · exact catalog_applyRecord e r
  · rfl

theorem catalog_restore (e : Engine) (records : List Record) :
    (e.restore records).2.catalog = e.catalog :=
  restore_induct (motive := fun d => d.catalog = e.catalog) records
    (fun d r hd => (catalog_restoreOne d r).trans hd) rfl

theorem settings_restoreOne (e : Engine) (r : Record) :
    (e.restoreOne r).2.settings = e.settings := by
  unfold restoreOne
  split
  · exact settings_applyRecord e r
  · rfl

theorem waiting_of_restoreOne {ref : RuleRef} {r q : Record}
    (h : (e.restoreOne r).2.waiting.get? ref = some q) :
    q = r ∧ r.ref = ref ∨ e.waiting.get? ref = some q := by
  unfold restoreOne at h
  split at h
  · rw [waiting_applyRecord] at h
    exact .inr h
  · rw [SortedMap.get?_insert] at h
    split at h
    · subst ref
      exact .inl ⟨(Option.some.inj h).symm, rfl⟩
    · exact .inr h

end Records

section Detach

def timersOf (e : Engine) (scope : Scope) : List Handle :=
  (e.states.ofScope scope).values.filterMap (·.timer)

theorem mem_timersOf {h : Handle} :
    h ∈ e.timersOf scope ↔ ∃ ref, ref.scope = scope ∧ e.timerOf ref = some h :=
  RuleStates.mem_timers_iff

theorem job?_detach (e : Engine) (scope : Scope) (h : Handle) :
    (e.detach scope).job? h =
      if h ∈ e.timersOf scope then none else (e.cancelDeferred (·.scope == scope)).job? h := by
  unfold detach job?
  dsimp only
  rw [Schedule.job?_cancelWhere]
  simp only [List.contains_iff_mem]
  rfl

theorem job?_of_detach {h : Handle} {r : Registration Job} (hj : (e.detach scope).job? h = some r) :
    e.job? h = some r ∧ (∀ ref, e.timerOf ref = some h → ref.scope ≠ scope) ∧
      (∀ ref, e.deferred.get? h = some ref → ref.scope ≠ scope) := by
  rw [job?_detach] at hj
  split at hj
  · cases hj
  · rename_i hn
    obtain ⟨hp, hj⟩ := job?_of_cancelDeferred hj
    refine ⟨hj, fun ref ht hs => hn (mem_timersOf.mpr ⟨ref, hs, ht⟩), fun ref hd => ?_⟩
    simpa using hp ref hd

theorem timerOf_detach (e : Engine) (scope : Scope) (ref : RuleRef) :
    (e.detach scope).timerOf ref = if ref.scope = scope then none else e.timerOf ref := by
  unfold timerOf detach
  dsimp only
  rw [RuleStates.stateOf_withoutScope]
  split <;> rfl

theorem rule?_detach (e : Engine) (scope : Scope) (ref : RuleRef) :
    (e.detach scope).catalog.rule? ref =
      if ref.scope = scope then none else e.catalog.rule? ref :=
  Catalog.rule?_remove ..

theorem target?_detach (h : ref.scope ≠ scope) : (e.detach scope).target? ref = e.target? ref :=
  target?_congr (by
    rw [show (e.detach scope).catalog = e.catalog.remove scope from rfl, Catalog.get?_remove, if_neg h])

theorem Linked.scope_of_job?_detach (hl : e.Linked) {h : Handle} {r : Registration Job}
    (hj : (e.detach scope).job? h = some r) (hr : r.payload.ref? = some ref) :
    ref.scope ≠ scope := by
  obtain ⟨hj, htimer, hdeferred⟩ := job?_of_detach hj
  have hf := hl.fits h r hj
  unfold Fits at hf
  cases hp : r.payload with
  | ruleTimer k epoch =>
    rw [hp] at hf hr
    cases hr
    obtain ⟨_, _, _, _, _, ht⟩ := hf
    exact htimer _ ht
  | continuation c =>
    rw [hp] at hf hr
    cases hr
    exact hdeferred _ hf.2.2.2
  | expireEffect actor effect stat =>
    rw [hp] at hr
    cases hr

theorem Linked.detach (hl : e.Linked) (scope : Scope) : (e.detach scope).Linked := by
  have hcancelled := hl.cancelDeferred (·.scope == scope)
  refine ⟨hl.catalog.remove scope, ?_, ?_, ?_, ?_, ?_, ?_⟩
  · intro ref hs
    have hget : (e.detach scope).states.get? ref =
        if ref.scope = scope then none else e.states.get? ref := RuleStates.get?_withoutScope ..
    rw [hget] at hs
    rw [rule?_detach]
    split at hs
    · cases hs
    · rw [if_neg ‹_›]
      exact hl.states ref hs
  · intro h r hj
    obtain ⟨hold, htimer, hdeferred⟩ := job?_of_detach hj
    refine (hl.fits h r hold).mono (fun ref hr => target?_detach (hl.scope_of_job?_detach hj hr)) ?_ ?_
    · intro ref ht
      rw [timerOf_detach, if_neg (htimer ref ht), ht]
    · intro ref hd
      have hget := get?_cancelDeferred e (·.scope == scope) h
      rw [show (e.detach scope).deferred = (e.cancelDeferred (·.scope == scope)).deferred from rfl,
        hget, hd]
      simpa using hdeferred ref hd
  · intro h r hj
    exact hl.issued h r (job?_of_detach hj).1
  · intro ref h ht
    rw [timerOf_detach] at ht
    split at ht
    · cases ht
    · obtain ⟨hlt, hjob⟩ := hl.timers ref h ht
      exact ⟨hlt, fun r hj => hjob r (job?_of_detach hj).1⟩
  · intro h ref hd
    obtain ⟨r, c, hj, hp, hc⟩ := hcancelled.deferred h ref hd
    refine ⟨r, c, ?_, hp, hc⟩
    rw [job?_detach, if_neg, hj]
    intro hm
    obtain ⟨k, -, ht⟩ := mem_timersOf.mp hm
    obtain ⟨epoch, hp'⟩ := (hl.timers k h ht).2 r (job?_of_cancelDeferred hj).2
    simp [hp] at hp'
  · intro ref record hw
    obtain ⟨hr, hc⟩ := hl.waiting ref record hw
    exact ⟨hr, by rw [show (e.detach scope).catalog = e.catalog.remove scope from rfl,
      Catalog.contains_remove, hc, Bool.and_false]⟩

theorem Live.detach (hl : e.Linked) (hv : e.Live) (scope : Scope) : (e.detach scope).Live := by
  refine hv.mono fun h r ref epoch hj hp => ⟨⟨r, (job?_of_detach hj).1, hp⟩, fun hw => ?_⟩
  have hs : ref.scope ≠ scope := hl.scope_of_job?_detach hj (by rw [hp]; rfl)
  refine hw.congr (by rw [rule?_detach, if_neg hs]) ?_
  rw [show (e.detach scope).states = e.states.withoutScope scope from rfl,
    RuleStates.stateOf_withoutScope, if_neg hs]

end Detach

section Install

variable {c : Content} {carried : List (RuleRef × RuleState)}

def placed (e : Engine) (c : Content) (carried : List (RuleRef × RuleState)) : Engine :=
  { e with
    catalog := (e.catalog.insert c.scope c.rules).2.2
    states := carried.foldl (fun states (ref, s) => states.insert ref s) e.states
    waiting := e.waiting.filter fun ref _ => ref.scope ≠ c.scope }

def waitingFor (e : Engine) (scope : Scope) : List Record :=
  (e.waiting.filter fun ref _ => ref.scope = scope).values

theorem install_eq (e : Engine) (c : Content) (carried : List (RuleRef × RuleState))
    (now : Instant) : (e.install c carried now).2 =
      ((e.placed c carried).applyRecords (e.waitingFor c.scope)).2.armTimers c.scope
        (e.catalog.lastEpoch + 1) now := rfl

def Carries (c : Content) (carried : List (RuleRef × RuleState)) : Prop :=
  ∀ p ∈ carried, p.1.scope = c.scope ∧ (c.rules.find? (·.id == p.1.rule)).isSome ∧ p.2.timer = none

theorem carries_nil (c : Content) : Carries c [] := by
  intro p hp
  cases hp

theorem carries_carriedStates (e : Engine) (c : Content) :
    Carries c (e.carriedStates c.scope c.rules) := by
  rintro ⟨ref, s⟩ hp
  simp only [carriedStates, List.mem_map, List.mem_filter, Bool.and_eq_true] at hp
  obtain ⟨⟨k, t⟩, ⟨hm, -, hperm⟩, heq⟩ := hp
  cases heq
  have hget := SortedMap.get?_eq_some_iff.mpr hm
  rw [RuleStates.get?_ofScope] at hget
  refine ⟨?_, ?_, rfl⟩
  · by_contra hs
    simp [hs] at hget
  · rw [hasPermanent, List.any_eq_true] at hperm
    obtain ⟨r, hr, hid⟩ := hperm
    rw [List.find?_isSome]
    exact ⟨r, hr, (Bool.and_eq_true _ _ ▸ hid).1⟩

theorem get?_foldl_insert (carried : List (RuleRef × RuleState)) (states : RuleStates)
    (ref : RuleRef) :
    (∀ s, SortedMap.get? (carried.foldl (fun states (ref, s) => states.insert ref s) states) ref =
        some s → (ref, s) ∈ carried ∨ states.get? ref = some s) ∧
      ((∀ s, (ref, s) ∉ carried) →
        SortedMap.get? (carried.foldl (fun states (ref, s) => states.insert ref s) states) ref =
          states.get? ref) := by
  induction carried generalizing states with
  | nil => exact ⟨fun _ => .inr, fun _ => rfl⟩
  | cons p rest ih =>
    obtain ⟨k, t⟩ := p
    obtain ⟨ihsome, ihnone⟩ := ih (states.insert k t)
    simp only [SortedMap.get?_insert] at ihsome ihnone
    constructor
    · intro s hs
      rcases ihsome s hs with hm | hg
      · exact .inl (List.mem_cons_of_mem _ hm)
      · split at hg
        · subst ref
          cases hg
          exact .inl List.mem_cons_self
        · exact .inr hg
    · intro hn
      refine (ihnone fun s hm => hn s (List.mem_cons_of_mem _ hm)).trans (if_neg ?_)
      rintro rfl
      exact hn t List.mem_cons_self

theorem get?_states_placed_of_ne (hcarries : Carries c carried) (h : ref.scope ≠ c.scope) :
    (e.placed c carried).states.get? ref = e.states.get? ref :=
  (get?_foldl_insert carried e.states ref).2 fun _ hm => h (hcarries _ hm).1

theorem stateOf_placed_of_ne (hcarries : Carries c carried) (h : ref.scope ≠ c.scope) :
    (e.placed c carried).states.stateOf ref = e.states.stateOf ref := by
  unfold RuleStates.stateOf
  rw [get?_states_placed_of_ne hcarries h]

theorem rule?_placed_of_ne (h : ref.scope ≠ c.scope) :
    (e.placed c carried).catalog.rule? ref = e.catalog.rule? ref :=
  Catalog.rule?_insert_of_ne _ _ h

theorem get?_waiting_placed (e : Engine) (c : Content) (carried : List (RuleRef × RuleState))
    (ref : RuleRef) : (e.placed c carried).waiting.get? ref =
      if ref.scope = c.scope then none else e.waiting.get? ref := by
  have hget : (e.placed c carried).waiting.get? ref =
      (e.waiting.get? ref).filter fun _ => decide (ref.scope ≠ c.scope) := SortedMap.get?_filter ..
  rw [hget]
  by_cases hs : ref.scope = c.scope <;> cases e.waiting.get? ref <;> simp [hs]

theorem Linked.get?_states_of_not_contains (hl : e.Linked)
    (hc : e.catalog.contains ref.scope = false) : e.states.get? ref = none :=
  hl.stateOf_of_not_installed (Catalog.rule?_eq_none_of_not_contains hc)

theorem Linked.timerOf_of_not_contains (hl : e.Linked) (hc : e.catalog.contains ref.scope = false) :
    e.timerOf ref = none := by
  rw [timerOf, RuleStates.stateOf_of_get?_none (hl.get?_states_of_not_contains hc)]

theorem Linked.timerOf_placed (hl : e.Linked) (hc : e.catalog.contains c.scope = false)
    (hcarries : Carries c carried) (ref : RuleRef) :
    (e.placed c carried).timerOf ref = e.timerOf ref := by
  by_cases hs : ref.scope = c.scope
  · rw [hl.timerOf_of_not_contains (by rw [hs]; exact hc)]
    by_contra hne
    obtain ⟨h, ht⟩ := Option.ne_none_iff_exists'.mp hne
    rcases (get?_foldl_insert carried e.states ref).1 _ (RuleStates.get?_of_timer ht) with hm | hg
    · have hnone : (e.placed c carried).timerOf ref = none := (hcarries _ hm).2.2
      simp [hnone] at ht
    · rw [hl.get?_states_of_not_contains (by rw [hs]; exact hc)] at hg
      cases hg
  · rw [timerOf, stateOf_placed_of_ne hcarries hs]
    rfl

theorem Linked.contains_of_job (hl : e.Linked) {h : Handle} {r : Registration Job}
    (hj : e.job? h = some r) (hr : r.payload.ref? = some ref) :
    e.catalog.contains ref.scope = true := by
  have hf := hl.fits h r hj
  unfold Fits at hf
  cases hp : r.payload with
  | ruleTimer k epoch =>
    rw [hp] at hf hr
    cases hr
    obtain ⟨_, _, ht, _⟩ := hf
    exact Catalog.contains_of_rule? (target?_eq_some_iff.mp ht).2
  | continuation c =>
    rw [hp] at hf hr
    cases hr
    exact Catalog.contains_of_rule? (target?_eq_some_iff.mp hf.1).2
  | expireEffect actor effect stat =>
    rw [hp] at hr
    cases hr

theorem Linked.scope_of_job (hl : e.Linked) (hc : e.catalog.contains scope = false) {h : Handle}
    {r : Registration Job} (hj : e.job? h = some r) (hr : r.payload.ref? = some ref) :
    ref.scope ≠ scope := by
  rintro rfl
  simp [hl.contains_of_job hj hr] at hc

theorem Linked.placed (hl : e.Linked) (hc : e.catalog.contains c.scope = false)
    (hrules : Content.Sound c.rules) (hcarries : Carries c carried) :
    (e.placed c carried).Linked := by
  have htimer := hl.timerOf_placed hc hcarries
  refine ⟨hl.catalog.insert hrules c.scope, ?_, ?_, hl.issued, ?_, hl.deferred, ?_⟩
  · intro ref hs
    obtain ⟨s, hs⟩ := Option.isSome_iff_exists.mp hs
    rcases (get?_foldl_insert carried e.states ref).1 s hs with hm | hg
    · obtain ⟨hscope, hfind, -⟩ := hcarries _ hm
      cases ref
      cases hscope
      exact (Catalog.rule?_insert_self ..).symm ▸ hfind
    · have hr := hl.states ref (by simp [hg])
      have hs : ref.scope ≠ c.scope := by
        intro hs
        rw [Catalog.rule?_eq_none_of_not_contains (by rw [hs]; exact hc)] at hr
        cases hr
      rwa [rule?_placed_of_ne hs]
  · intro h r hj
    refine (hl.fits h r hj).mono (fun ref hr => target?_congr ?_) (fun ref ht => ?_) fun _ => id
    · exact (Catalog.get?_insert ..).trans (if_neg (hl.scope_of_job hc hj hr))
    · rw [htimer, ht]
  · intro ref h ht
    rw [htimer] at ht
    exact hl.timers ref h ht
  · intro ref record hw
    rw [get?_waiting_placed] at hw
    split at hw
    · cases hw
    · rename_i hs
      obtain ⟨hr, hn⟩ := hl.waiting ref record hw
      refine ⟨hr, (Catalog.contains_insert ..).trans ?_⟩
      rw [hn, Bool.or_false]
      exact decide_eq_false hs

theorem Live.placed (hl : e.Linked) (hv : e.Live) (hc : e.catalog.contains c.scope = false)
    (hcarries : Carries c carried) : (e.placed c carried).Live := by
  refine hv.mono fun h r ref epoch hj hp => ⟨⟨r, hj, hp⟩, fun hw => ?_⟩
  have hs : ref.scope ≠ c.scope := hl.scope_of_job hc hj (by rw [hp]; rfl)
  exact hw.congr (rule?_placed_of_ne hs) (stateOf_placed_of_ne hcarries hs)

def armEach (e : Engine) (scope : Scope) (epoch : Nat) (now : Instant) (ls : List LoadedRule) :
    Engine :=
  ls.foldl (fun e l => e.armTimer scope epoch l.rule now) e

theorem armTimers_eq {i : Installation} (hi : e.catalog.get? scope = some i) (epoch : Nat)
    (now : Instant) :
    e.armTimers scope epoch now = e.armEach scope epoch now (i.boundTo .timer) := by
  unfold armTimers Catalog.candidates
  rw [hi]
  rfl

theorem armEach_induct {motive : Engine → Prop} {i : Installation} {ls : List LoadedRule}
    (hsound : e.catalog.Sound) (hi : e.catalog.get? scope = some i) (hls : ∀ l ∈ ls, l ∈ i.rules)
    (hstep : ∀ e' r, e'.catalog = e.catalog → e'.target? ⟨scope, r.id⟩ = some (i.epoch, r) →
      motive e' → motive (e'.armTimer scope i.epoch r now))
    (hm : motive e) : motive (e.armEach scope i.epoch now ls) := by
  induction ls generalizing e with
  | nil => exact hm
  | cons l rest ih =>
    have hcat : (e.armTimer scope i.epoch l.rule now).catalog = e.catalog := catalog_armTimer ..
    have ht : e.target? ⟨scope, l.rule.id⟩ = some (i.epoch, l.rule) := by
      rw [target?_eq_some_iff, Catalog.epoch?, hi]
      exact ⟨rfl, hsound.rule?_of_mem hi (hls l List.mem_cons_self)⟩
    refine ih (by rwa [hcat]) (by rwa [hcat]) (fun l hl => hls l (List.mem_cons_of_mem _ hl)) ?_
      (hstep e l.rule rfl ht hm)
    rwa [hcat]

theorem catalog_applyRecords (e : Engine) (records : List Record) :
    (e.applyRecords records).2.catalog = e.catalog := by
  induction records generalizing e with
  | nil => rfl
  | cons r rest ih => exact (ih _).trans (catalog_applyRecord e r)

theorem get?_placed (e : Engine) (c : Content) (carried : List (RuleRef × RuleState)) :
    (e.placed c carried).catalog.get? c.scope =
      some ⟨e.catalog.lastEpoch + 1, c.rules.map LoadedRule.ofRule⟩ :=
  (Catalog.get?_insert ..).trans (if_pos rfl)

theorem install_induct {motive : Engine → Prop} (hrules : Content.Sound c.rules)
    (hsound : e.catalog.Sound) (hplaced : motive (e.placed c carried))
    (hrecord : ∀ e', ∀ r ∈ e.waitingFor c.scope, motive e' → motive (e'.applyRecord r).2)
    (harm : ∀ e' r epoch, e'.target? ⟨c.scope, r.id⟩ = some (epoch, r) → motive e' →
      motive (e'.armTimer c.scope epoch r now)) : motive (e.install c carried now).2 := by
  have hget := get?_placed e c carried
  rw [← catalog_applyRecords (e.placed c carried) (e.waitingFor c.scope)] at hget
  rw [install_eq, armTimers_eq hget]
  refine armEach_induct ?_ hget (fun l hl => (List.mem_filter.mp hl).1)
    (fun e' r _ ht hm => harm e' r _ ht hm) (applyRecords_induct _ hrecord hplaced)
  rw [catalog_applyRecords]
  exact hsound.insert hrules c.scope

theorem catalog_install (hrules : Content.Sound c.rules) (hsound : e.catalog.Sound) :
    (e.install c carried now).2.catalog = (e.placed c carried).catalog :=
  install_induct (motive := fun e' => e'.catalog = (e.placed c carried).catalog) hrules hsound rfl
    (fun e' r _ hm => (catalog_applyRecord e' r).trans hm)
    fun _ _ _ _ hm => (catalog_armTimer ..).trans hm

theorem settings_install (hrules : Content.Sound c.rules) (hsound : e.catalog.Sound) :
    (e.install c carried now).2.settings = e.settings :=
  install_induct (motive := fun e' => e'.settings = e.settings) hrules hsound rfl
    (fun e' r _ hm => (settings_applyRecord e' r).trans hm)
    fun _ _ _ _ hm => (settings_armTimer ..).trans hm

theorem waiting_install (hrules : Content.Sound c.rules) (hsound : e.catalog.Sound) :
    (e.install c carried now).2.waiting = e.waiting.filter fun ref _ => ref.scope ≠ c.scope :=
  install_induct (motive := fun e' => e'.waiting = e.waiting.filter fun ref _ => ref.scope ≠ c.scope)
    hrules hsound rfl (fun e' r _ hm => (waiting_applyRecord e' r).trans hm)
    fun _ _ _ _ hm => (waiting_armTimer ..).trans hm

theorem Linked.install (hl : e.Linked) (hc : e.catalog.contains c.scope = false)
    (hrules : Content.Sound c.rules) (hcarries : Carries c carried) (now : Instant) :
    (e.install c carried now).2.Linked :=
  install_induct hrules hl.catalog (hl.placed hc hrules hcarries) (fun _ r _ h => h.applyRecord r)
    fun _ _ _ ht h => h.armTimer ht now

theorem Live.install (hl : e.Linked) (hv : e.Live) (hc : e.catalog.contains c.scope = false)
    (hrules : Content.Sound c.rules) (hcarries : Carries c carried) (now : Instant) :
    (e.install c carried now).2.Live := by
  have hboth : (e.install c carried now).2.Linked ∧ (e.install c carried now).2.Live :=
    install_induct (motive := fun e => e.Linked ∧ e.Live) hrules hl.catalog
      ⟨hl.placed hc hrules hcarries, hv.placed hl hc hcarries⟩
      (fun _ r _ h => ⟨h.1.applyRecord r, h.2.applyRecord h.1 r⟩)
      fun _ _ _ ht h => ⟨h.1.armTimer ht now, h.2.armTimer ht now⟩
  exact hboth.2

end Install

section Load

variable {c : Content}

theorem not_contains_detach (e : Engine) (scope : Scope) :
    (e.detach scope).catalog.contains scope = false := by
  rw [show (e.detach scope).catalog = e.catalog.remove scope from rfl, Catalog.contains_remove]
  simp

theorem load_eq_install (e : Engine) (c : Content) (now : Instant) :
    ((e.load c now).2 = (e.install c [] now).2 ∧ e.catalog.contains c.scope = false) ∨
      (e.load c now).2 = (e.reload c now).2 := by
  unfold load
  split
  · exact .inr rfl
  · exact .inl ⟨rfl, Bool.eq_false_of_not_eq_true ‹_›⟩

theorem Linked.reload (hl : e.Linked) (hrules : Content.Sound c.rules) (now : Instant) :
    (e.reload c now).2.Linked :=
  (hl.detach c.scope).install (not_contains_detach ..) hrules (carries_carriedStates e c) now

theorem Live.reload (hl : e.Linked) (hv : e.Live) (hrules : Content.Sound c.rules)
    (now : Instant) : (e.reload c now).2.Live :=
  (hv.detach hl c.scope).install (hl.detach c.scope) (not_contains_detach ..) hrules
    (carries_carriedStates e c) now

theorem Linked.load (hl : e.Linked) (hrules : Content.Sound c.rules) (now : Instant) :
    (e.load c now).2.Linked := by
  rcases load_eq_install e c now with ⟨h, hc⟩ | h <;> rw [h]
  · exact hl.install hc hrules (carries_nil c) now
  · exact hl.reload hrules now

theorem Live.load (hl : e.Linked) (hv : e.Live) (hrules : Content.Sound c.rules) (now : Instant) :
    (e.load c now).2.Live := by
  rcases load_eq_install e c now with ⟨h, hc⟩ | h <;> rw [h]
  · exact hv.install hl hc hrules (carries_nil c) now
  · exact hv.reload hl hrules now

end Load

end WorldTriggers.Engine
