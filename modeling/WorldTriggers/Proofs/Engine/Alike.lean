import WorldTriggers.Proofs.Engine.Reloading

namespace WorldTriggers

namespace RuleStates

def Alike (s t : RuleStates) : Prop := ∀ ref, t.stateOf ref = s.stateOf ref

variable {s t : RuleStates}

theorem alike_insert_default {ref : RuleRef} (h : s.get? ref = none) : Alike s (s.insert ref {}) := by
  intro k
  rw [stateOf_insert]
  split
  · subst k
    exact (stateOf_of_get?_none h).symm
  · rfl

theorem Alike.update (h : Alike s t) (ref : RuleRef) (f : RuleState → RuleState) :
    Alike (s.update ref f) (t.update ref f) := by
  intro k
  rw [stateOf_update, stateOf_update, h, h]

theorem Alike.withoutScope (h : Alike s t) (scope : Scope) :
    Alike (s.withoutScope scope) (t.withoutScope scope) := by
  intro k
  rw [stateOf_withoutScope, stateOf_withoutScope, h]

end RuleStates

namespace Engine

/-- An engine that is another one but for the default states that it keeps. -/
def Alike (e d : Engine) : Prop :=
  ∃ states : RuleStates, RuleStates.Alike e.states states ∧ d = { e with states }

variable {e d : Engine}

namespace Alike

theorem stateOf (h : Alike e d) (ref : RuleRef) : d.states.stateOf ref = e.states.stateOf ref := by
  obtain ⟨states, hs, rfl⟩ := h
  exact hs ref

theorem settings (h : Alike e d) : d.settings = e.settings := by
  obtain ⟨_, -, rfl⟩ := h
  rfl

theorem catalog (h : Alike e d) : d.catalog = e.catalog := by
  obtain ⟨_, -, rfl⟩ := h
  rfl

theorem schedule (h : Alike e d) : d.schedule = e.schedule := by
  obtain ⟨_, -, rfl⟩ := h
  rfl

theorem waiting (h : Alike e d) : d.waiting = e.waiting := by
  obtain ⟨_, -, rfl⟩ := h
  rfl

theorem update (h : Alike e d) (ref : RuleRef) (f : RuleState → RuleState) :
    Alike { e with states := e.states.update ref f } { d with states := d.states.update ref f } := by
  obtain ⟨states, hs, rfl⟩ := h
  exact ⟨_, hs.update ref f, rfl⟩

theorem target? (h : Alike e d) (ref : RuleRef) : d.target? ref = e.target? ref :=
  target?_congr (by rw [h.catalog])

section Control

theorem startTimer (h : Alike e d) (ref : RuleRef) (epoch : Nat) (interval : Span) (due : Instant) :
    Alike (e.startTimer ref epoch interval due) (d.startTimer ref epoch interval due) := by
  obtain ⟨states, hs, rfl⟩ := h
  exact ⟨_, hs.update ref _, rfl⟩

theorem lacksTimer_iff (h : Alike e d) (ref : RuleRef) (r : Rule) :
    d.lacksTimer ref r ↔ e.lacksTimer ref r := by
  unfold lacksTimer timerOf
  rw [h.stateOf, h.schedule]

theorem armTimer (h : Alike e d) (scope : Scope) (epoch : Nat) (r : Rule) (now : Instant) :
    Alike (e.armTimer scope epoch r now) (d.armTimer scope epoch r now) := by
  cases hplan : r.timerPlan? with
  | none =>
    rw [armTimer_of_no_plan hplan, armTimer_of_no_plan hplan]
    exact h
  | some plan =>
    have htouch : Alike (e.touch ⟨scope, r.id⟩) (d.touch ⟨scope, r.id⟩) := h.update _ id
    have hlacks := htouch.lacksTimer_iff ⟨scope, r.id⟩ r
    -- Either both timers start, at one time, or neither does.
    rcases armTimer_eq hplan e scope epoch now with ⟨hno, he⟩ | ⟨due, hyes, hdue, he⟩
    · rcases armTimer_eq hplan d scope epoch now with ⟨-, hd⟩ | ⟨due', hyes', hdue', hd⟩
      · rwa [he, hd]
      · rw [hdue'] at hno
        exact absurd (hlacks.mp hyes') (hno.resolve_right (by simp))
    · rcases armTimer_eq hplan d scope epoch now with ⟨hno', hd⟩ | ⟨due', -, hdue', hd⟩
      · rw [hdue] at hno'
        exact absurd (hlacks.mpr hyes) (hno'.resolve_right (by simp))
      · obtain rfl := Option.some.inj (hdue.symm.trans hdue')
        rw [he, hd]
        exact htouch.startTimer ..

theorem disarmTimer (h : Alike e d) (ref : RuleRef) :
    Alike (e.disarmTimer ref) (d.disarmTimer ref) := by
  obtain ⟨states, hs, rfl⟩ := h
  unfold Engine.disarmTimer
  dsimp only
  rw [hs]
  exact ⟨_, hs.update ref _, rfl⟩

theorem cancelDeferred (h : Alike e d) (p : RuleRef → Bool) :
    Alike (e.cancelDeferred p) (d.cancelDeferred p) := by
  obtain ⟨states, hs, rfl⟩ := h
  exact ⟨states, hs, rfl⟩

theorem switchedOn (h : Alike e d) (ref : RuleRef) (epoch : Nat) (r : Rule) (now : Instant) :
    Alike (e.switchedOn ref epoch r now) (d.switchedOn ref epoch r now) := by
  have hflag : Alike (e.flag ref true) (d.flag ref true) := h.update ..
  unfold Engine.switchedOn
  split
  · exact hflag.armTimer ..
  · exact hflag

theorem switchedOff (h : Alike e d) (ref : RuleRef) (r : Rule) :
    Alike (e.switchedOff ref r) (d.switchedOff ref r) := by
  have hflag : Alike (e.flag ref false) (d.flag ref false) := h.update ..
  refine cancelDeferred ?_ _
  split
  · exact hflag.disarmTimer ref
  · exact hflag

theorem target (h : Alike e d) (ref : RuleRef) : d.target ref = e.target ref := by
  unfold Engine.target
  rw [h.catalog, h.target?]

theorem setEnabled (h : Alike e d) (ref : RuleRef) (enabled : Bool) (now : Instant) :
    (∃ err, e.setEnabled ref enabled now = .error err ∧ d.setEnabled ref enabled now = .error err) ∨
      ∃ notice e' d', e.setEnabled ref enabled now = .ok (notice, e') ∧
        d.setEnabled ref enabled now = .ok (notice, d') ∧ Alike e' d' := by
  cases ht : e.target ref with
  | error err =>
    refine .inl ⟨err, ?_, ?_⟩ <;> unfold Engine.setEnabled
    · rw [ht]
      rfl
    · rw [h.target, ht]
      rfl
  | ok t =>
    obtain ⟨epoch, r⟩ := t
    have ht := target_eq_ok_iff.mp ht
    refine .inr ⟨_, _, _, setEnabled_of_target? ht enabled now,
      setEnabled_of_target? ((h.target? ref).trans ht) enabled now, ?_⟩
    cases enabled with
    | true => exact h.switchedOn ..
    | false => exact h.switchedOff ..

end Control

section Firing

theorem recordFiring (h : Alike e d) (f : Firing) (now : Instant) :
    Alike (e.recordFiring f now) (d.recordFiring f now) := by
  have hrecord := h.update f.ref (·.recordFiring f.cooldownKey now)
  unfold Engine.recordFiring
  dsimp only
  rw [hrecord.stateOf]
  split
  · exact hrecord.disarmTimer f.ref
  · exact hrecord

theorem scheduleContinuation (h : Alike e d) (c : Continuation) (due : Instant) :
    Alike (e.scheduleContinuation c due) (d.scheduleContinuation c due) := by
  obtain ⟨states, hs, rfl⟩ := h
  exact ⟨states, hs, rfl⟩

theorem scheduleExpiry (h : Alike e d) (actor : ActorId) (effect : String) (stat : Option StatChange)
    (due : Instant) : Alike (e.scheduleExpiry actor effect stat due)
      (d.scheduleExpiry actor effect stat due) := by
  obtain ⟨states, hs, rfl⟩ := h
  exact ⟨states, hs, rfl⟩

end Firing

section Records

variable {c : Content}

theorem applyRecord (h : Alike e d) (r : Record) :
    (d.applyRecord r).1 = (e.applyRecord r).1 ∧ Alike (e.applyRecord r).2 (d.applyRecord r).2 := by
  obtain ⟨states, hs, rfl⟩ := h
  have hupdate : Alike { e with states := e.states.update r.ref (·.restore r) }
      { e with states := states.update r.ref (·.restore r) } := ⟨_, hs.update r.ref _, rfl⟩
  unfold Engine.applyRecord
  cases e.catalog.rule? r.ref with
  | none => exact ⟨rfl, states, hs, rfl⟩
  | some rule =>
    dsimp only
    split
    · rw [hupdate.stateOf]
      split
      · exact ⟨rfl, hupdate.disarmTimer r.ref⟩
      · exact ⟨rfl, hupdate⟩
    · exact ⟨rfl, states, hs, rfl⟩

theorem applyRecords (h : Alike e d) (records : List Record) :
    (d.applyRecords records).1 = (e.applyRecords records).1 ∧
      Alike (e.applyRecords records).2 (d.applyRecords records).2 := by
  induction records generalizing e d with
  | nil => exact ⟨rfl, h⟩
  | cons r rest ih =>
    obtain ⟨happlied, halike⟩ := h.applyRecord r
    obtain ⟨hcount, hrest⟩ := ih halike
    refine ⟨?_, hrest⟩
    simp only [Engine.applyRecords]
    rw [happlied, hcount]

theorem restoreOne (h : Alike e d) (r : Record) :
    (d.restoreOne r).1 = (e.restoreOne r).1 ∧ Alike (e.restoreOne r).2 (d.restoreOne r).2 := by
  unfold Engine.restoreOne
  rw [h.catalog]
  split
  · exact h.applyRecord r
  · obtain ⟨states, hs, rfl⟩ := h
    exact ⟨rfl, states, hs, rfl⟩

theorem restore (h : Alike e d) (records : List Record) :
    (d.restore records).1 = (e.restore records).1 ∧
      Alike (e.restore records).2 (d.restore records).2 := by
  induction records generalizing e d with
  | nil => exact ⟨rfl, h⟩
  | cons r rest ih =>
    obtain ⟨happlied, halike⟩ := h.restoreOne r
    obtain ⟨hcount, hrest⟩ := ih halike
    refine ⟨?_, hrest⟩
    simp only [Engine.restore]
    rw [happlied, hcount]

theorem detach (h : Alike e d) (scope : Scope) : Alike (e.detach scope) (d.detach scope) := by
  -- Timers are looked up in the states that are kept, and a default state has none.
  have htimers : (d.timersOf scope).contains = (e.timersOf scope).contains := by
    funext k
    rw [Bool.eq_iff_iff, List.contains_iff_mem, List.contains_iff_mem, mem_timersOf, mem_timersOf]
    simp only [timerOf, h.stateOf]
  obtain ⟨states, hs, rfl⟩ := h
  refine ⟨_, hs.withoutScope scope, ?_⟩
  unfold Engine.detach
  dsimp only
  rw [show ((states.ofScope scope).values.filterMap (·.timer)).contains =
    (e.timersOf scope).contains from htimers]
  rfl

theorem armTimers (h : Alike e d) (scope : Scope) (epoch : Nat) (now : Instant) :
    Alike (e.armTimers scope epoch now) (d.armTimers scope epoch now) := by
  have hfold (ls : List LoadedRule) (e d : Engine) (h : Alike e d) :
      Alike (ls.foldl (fun e l => e.armTimer scope epoch l.rule now) e)
        (ls.foldl (fun e l => e.armTimer scope epoch l.rule now) d) := by
    induction ls generalizing e d with
    | nil => exact h
    | cons l rest ih => exact ih _ _ (h.armTimer scope epoch l.rule now)
  unfold Engine.armTimers
  rw [h.catalog]
  exact hfold _ e d h

theorem placed (h : Alike e d) :
    Alike ((e.detach c.scope).placed c (e.carriedStates c.scope c.rules))
      ((d.detach c.scope).placed c (d.carriedStates c.scope c.rules)) := by
  have hcarried (ref : RuleRef) : ((d.carried? c ref).map RuleState.carried).getD {} =
      ((e.carried? c ref).map RuleState.carried).getD {} := by
    have hmap (s : RuleStates) :
        ((s.get? ref).map RuleState.carried).getD {} = (s.stateOf ref).carried := by
      unfold RuleStates.stateOf
      cases s.get? ref <;> rfl
    unfold carried?
    rw [h.catalog]
    split
    · rw [hmap, hmap, h.stateOf]
    · rfl
  have hstates (ref : RuleRef) :
      ((d.detach c.scope).placed c (d.carriedStates c.scope c.rules)).states.stateOf ref =
        ((e.detach c.scope).placed c (e.carriedStates c.scope c.rules)).states.stateOf ref := by
    by_cases hs : ref.scope = c.scope
    · rw [stateOf_placed_carried hs, stateOf_placed_carried hs, hcarried]
    · unfold RuleStates.stateOf
      rw [get?_placed_of_ne (carries_carriedStates d c) hs,
        get?_placed_of_ne (carries_carriedStates e c) hs]
      exact h.stateOf ref
  refine ⟨_, hstates, ?_⟩
  obtain ⟨_, -, hdetach⟩ := h.detach c.scope
  unfold Engine.placed
  rw [hdetach]

theorem install (h : Alike e d) {carried carried' : List (RuleRef × RuleState)}
    (hplaced : Alike (e.placed c carried) (d.placed c carried')) (now : Instant) :
    ({ (d.install c carried' now).1 with restored := 0 } : LoadReport) =
        { (e.install c carried now).1 with restored := 0 } ∧
      Alike (e.install c carried now).2 (d.install c carried' now).2 := by
  constructor
  · unfold Engine.install
    rw [h.settings]
  · rw [install_eq, install_eq]
    unfold waitingFor
    rw [h.waiting, h.catalog]
    exact (hplaced.applyRecords _).2.armTimers ..

theorem reload (h : Alike e d) (c : Content) (now : Instant) :
    ({ (d.reload c now).1 with restored := 0 } : LoadReport) =
        { (e.reload c now).1 with restored := 0 } ∧
      Alike (e.reload c now).2 (d.reload c now).2 :=
  (h.detach c.scope).install h.placed now

theorem load (h : Alike e d) (c : Content) (now : Instant) :
    ({ (d.load c now).1 with restored := 0 } : LoadReport) =
        { (e.load c now).1 with restored := 0 } ∧
      Alike (e.load c now).2 (d.load c now).2 := by
  unfold Engine.load
  rw [h.catalog]
  split
  · exact h.reload c now
  · refine h.install ?_ now
    obtain ⟨states, hs, rfl⟩ := h
    exact ⟨states, hs, rfl⟩

theorem unload (h : Alike e d) (scope : Scope) :
    (d.unload scope).1 = (e.unload scope).1 ∧ Alike (e.unload scope).2 (d.unload scope).2 := by
  unfold Engine.unload
  rw [h.catalog]
  split
  · exact ⟨rfl, h.detach scope⟩
  · exact ⟨rfl, h⟩

end Records

theorem isEnabled? (h : Alike e d) (ref : RuleRef) : d.isEnabled? ref = e.isEnabled? ref := by
  unfold Engine.isEnabled?
  rw [h.catalog, h.stateOf]

theorem exported (h : Alike e d) : d.exported = e.exported := by
  unfold Engine.exported RuleStates.snapshot
  simp only [h.catalog, h.waiting, h.stateOf]

end Alike

structure Agree {α β : Type} (x y : α × Engine × β) : Prop where
  first : y.1 = x.1
  engine : Alike x.2.1 y.2.1
  last : y.2.2 = x.2.2

end Engine

end WorldTriggers
