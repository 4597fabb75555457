import Mathlib.Data.Multiset.DershowitzManna
import WorldTriggers.Proofs.Engine.Operation

namespace WorldTriggers.Engine

variable {e e' : Engine} {w w' : World} {now : Instant} {notices : List Notice}

inductive Drains (now : Instant) : Engine → World → Prop where
  | rest {e : Engine} {w : World} (h : e.runNext? w now = none) : Drains now e w
  | job {e e' : Engine} {w w' : World} {notices : List Notice}
      (h : e.runNext? w now = some (notices, e', w')) (hd : Drains now e' w') : Drains now e w

theorem drains_iff : (∃ budget, (e.advance budget w now).isSome) ↔ Drains now e w := by
  constructor
  · rintro ⟨budget, h⟩
    unfold advance at h
    generalize [] = told at h
    induction budget generalizing told e w with
    | zero =>
      unfold advanceFrom at h
      split at h
      · exact .rest ‹_›
      · cases h
    | succ budget ih =>
      unfold advanceFrom at h
      split at h
      · exact .rest ‹_›
      · exact .job ‹_› (ih _ h)
  · intro h
    suffices hfrom : ∃ budget, ∀ told, (advanceFrom budget told e w now).isSome by
      obtain ⟨budget, hb⟩ := hfrom
      exact ⟨budget, hb []⟩
    induction h with
    | rest h =>
      refine ⟨0, fun told => ?_⟩
      unfold advanceFrom
      rw [h]
      rfl
    | job h _ ih =>
      obtain ⟨budget, hb⟩ := ih
      refine ⟨budget + 1, fun told => ?_⟩
      unfold advanceFrom
      rw [h]
      exact hb _

theorem not_drains {inv : Engine → World → Prop}
    (hstep : ∀ e w, inv e w → ∃ notices e' w', e.runNext? w now = some (notices, e', w') ∧ inv e' w')
    (hi : inv e w) : ¬Drains now e w := by
  intro h
  induction h with
  | rest h =>
    obtain ⟨_, _, _, hrun, -⟩ := hstep _ _ hi
    rw [h] at hrun
    cases hrun
  | job h _ ih =>
    obtain ⟨_, _, _, hrun, hi'⟩ := hstep _ _ hi
    rw [h] at hrun
    cases hrun
    exact ih hi'

theorem advance_eq_none {inv : Engine → World → Prop}
    (hstep : ∀ e w, inv e w → ∃ notices e' w', e.runNext? w now = some (notices, e', w') ∧ inv e' w')
    (hi : inv e w) (budget : Nat) : e.advance budget w now = none := by
  by_contra hne
  have hsome := Option.isSome_iff_ne_none.mpr hne
  exact not_drains hstep hi (drains_iff.mp ⟨budget, hsome⟩)

section Descent

variable {α : Type} [Preorder α] {label : Registration Job → α}

def dueJobs (e : Engine) (now : Instant) : Multiset (Handle × Registration Job) :=
  (e.schedule.jobs.entries.filter fun p => decide (p.2.due ≤ now) : List _)

theorem mem_dueJobs {h : Handle} {r : Registration Job} :
    (h, r) ∈ e.dueJobs now ↔ e.job? h = some r ∧ r.due ≤ now := by
  have hmem : (h, r) ∈ e.schedule.jobs.entries ↔ e.job? h = some r :=
    SortedMap.get?_eq_some_iff.symm
  simp [dueJobs, hmem]

theorem nodup_dueJobs (e : Engine) (now : Instant) : (e.dueJobs now).Nodup := by
  apply Multiset.coe_nodup.mpr
  apply List.Nodup.filter
  exact List.Nodup.of_map _ e.schedule.jobs.nodup_keys

theorem isDershowitzMannaLT_of_replaced {β : Type} {s t : Multiset β} (ht : t.Nodup) {f : β → α}
    {b : β} (hb : b ∈ s) (h : ∀ a ∈ t, a ∈ s ∧ a ≠ b ∨ f a < f b) :
    (t.map f).IsDershowitzMannaLT (s.map f) := by
  classical
  -- What is kept is in both multisets, as `t` has nothing twice; `b` goes with what is lost.
  have hle : t.filter (· ∈ s.erase b) ≤ s.erase b :=
    (Multiset.le_iff_subset (ht.filter _)).mpr fun a ha => (Multiset.mem_filter.mp ha).2
  have hs : s = t.filter (· ∈ s.erase b) + b ::ₘ (s.erase b - t.filter (· ∈ s.erase b)) := by
    rw [Multiset.add_cons, add_tsub_cancel_of_le hle, Multiset.cons_erase hb]
  refine ⟨(t.filter (· ∈ s.erase b)).map f, (t.filter (· ∉ s.erase b)).map f,
    (b ::ₘ (s.erase b - t.filter (· ∈ s.erase b))).map f, ?_, ?_, ?_, ?_⟩
  · simp
  · rw [← Multiset.map_add, Multiset.filter_add_not]
  · rw [← Multiset.map_add, ← hs]
  · intro y hy
    obtain ⟨a, ha, rfl⟩ := Multiset.mem_map.mp hy
    obtain ⟨hat, hnot⟩ := Multiset.mem_filter.mp ha
    refine ⟨f b, Multiset.mem_map_of_mem f (Multiset.mem_cons_self _ _), ?_⟩
    rcases h a hat with ⟨has, hne⟩ | hlt
    · exact absurd ((Multiset.mem_erase_of_ne hne).mpr has) hnot
    · exact hlt

def Descends (label : Registration Job → α) (now : Instant) (e e' : Engine) : Prop :=
  ∃ h r, e.job? h = some r ∧ r.due ≤ now ∧ ∀ k q, e'.job? k = some q → q.due ≤ now →
    k ≠ h ∧ e.job? k = some q ∨ label q < label r

theorem Descends.lt (h : Descends label now e e') :
    ((e'.dueJobs now).map fun p => label p.2).IsDershowitzMannaLT
      ((e.dueJobs now).map fun p => label p.2) := by
  obtain ⟨h, r, hr, hdue, hnew⟩ := h
  apply isDershowitzMannaLT_of_replaced (nodup_dueJobs e' now) (mem_dueJobs.mpr ⟨hr, hdue⟩)
  rintro ⟨k, q⟩ hq
  obtain ⟨hq, hqdue⟩ := mem_dueJobs.mp hq
  rcases hnew k q hq hqdue with ⟨hne, hold⟩ | hlt
  · left
    refine ⟨mem_dueJobs.mpr ⟨hold, hqdue⟩, ?_⟩
    intro heq
    exact hne (congrArg Prod.fst heq)
  · exact .inr hlt

theorem drains_of_descends [WellFoundedLT α] {inv : Engine → World → Prop}
    (hstep : ∀ e w notices e' w', inv e w → e.runNext? w now = some (notices, e', w') →
      inv e' w' ∧ Descends label now e e')
    (hi : inv e w) : Drains now e w := by
  have hwf : WellFounded (Multiset.IsDershowitzMannaLT : Multiset α → Multiset α → Prop) :=
    Multiset.wellFounded_isDershowitzMannaLT
  generalize hm : (e.dueJobs now).map (fun p => label p.2) = m
  induction m using hwf.induction generalizing e w with
  | _ m ih =>
    cases hrun : e.runNext? w now with
    | none => exact .rest hrun
    | some t =>
      obtain ⟨notices, e', w'⟩ := t
      obtain ⟨hi', hd⟩ := hstep e w notices e' w' hi hrun
      exact .job hrun (ih _ (hm ▸ hd.lt) hi' rfl)

end Descent

section Old

theorem Linked.due_of_taken {h k : Handle} {r q : Registration Job} (hl : e.Linked)
    (hr : e.job? h = some r) (hq : (e.taken h r now).job? k = some q) (hdue : q.due ≤ now) :
    k ≠ h ∧ e.job? k = some q := by
  rw [job?_taken] at hq
  split at hq
  · obtain ⟨due, hnext, rfl⟩ := Option.map_eq_some_iff.mp hq
    exfalso
    have hfits := hl.fits h r hr
    obtain ⟨ref, epoch, hp⟩ := hfits.payload_of_interval (interval_isSome_of_nextTime? hnext)
    simp only [Fits, hp] at hfits
    -- Only a timer recurs, and then not before its interval has passed.
    obtain ⟨_, plan, -, -, hinterval, -⟩ := hfits
    unfold Schedule.nextTime? at hnext
    rw [hinterval] at hnext
    by_cases hpos : 0 < plan.interval
    · rw [if_pos hpos] at hnext
      exact absurd hdue (not_le_of_gt (Schedule.lt_of_nextDue? hpos hnext))
    · rw [if_neg hpos] at hnext
      cases hnext
  · exact ⟨‹_›, hq⟩

structure Grows (e e' : Engine) : Prop where
  next : e.schedule.nextHandle ≤ e'.schedule.nextHandle
  jobs : ∀ h r, e'.job? h = some r → e.job? h = some r ∨ e.schedule.nextHandle ≤ h

theorem Grows.refl (e : Engine) : Grows e e := ⟨le_refl _, fun _ _ => .inl⟩

theorem grows_of_schedule (h : e'.schedule = e.schedule) : Grows e e' := by
  constructor
  · rw [h]
  · intro k r hr
    rw [job?, h] at hr
    exact .inl hr

theorem Grows.trans {d : Engine} (h : Grows e e') (h' : Grows e' d) : Grows e d where
  next := h.next.trans h'.next
  jobs k r hr := by
    rcases h'.jobs k r hr with hr | hk
    · exact h.jobs k r hr
    · exact .inr (h.next.trans hk)

theorem grows_of_register {due : Instant} {interval : Option Span} {payload : Job}
    (h : e'.schedule = (e.schedule.register due interval payload).2) : Grows e e' := by
  constructor
  · rw [h, Schedule.nextHandle_register]
    exact Nat.le_succ _
  · intro k r hr
    rw [job?, h, Schedule.job?_register] at hr
    split at hr
    · exact .inr (by simp [*])
    · exact .inl hr

theorem grows_disarmTimer (e : Engine) (ref : RuleRef) : Grows e (e.disarmTimer ref) := by
  constructor
  · rw [nextHandle_disarmTimer]
  · intro k r hr
    exact .inl (job?_of_disarmTimer hr).2

theorem grows_armTimer (e : Engine) (scope : Scope) (epoch : Nat) (r : Rule) (now : Instant) :
    Grows e (e.armTimer scope epoch r now) := by
  cases hplan : r.timerPlan? with
  | none =>
    rw [armTimer_of_no_plan hplan]
    exact .refl e
  | some plan =>
    have htouch : Grows e (e.touch ⟨scope, r.id⟩) := grows_of_schedule rfl
    rcases armTimer_eq hplan e scope epoch now with ⟨-, he⟩ | ⟨due, -, -, he⟩
    · rw [he]
      exact htouch
    · rw [he]
      exact htouch.trans (grows_of_register rfl)

theorem grows_setEnabled {ref : RuleRef} {enabled : Bool} {notice : Notice}
    (h : e.setEnabled ref enabled now = .ok (notice, e')) : Grows e e' := by
  obtain ⟨epoch, r, -, rfl⟩ := setEnabled_eq_ok h
  have hflag : Grows e (e.flag ref enabled) := grows_of_schedule rfl
  have hcancel (d : Engine) : Grows d (d.cancelDeferred (· == ref)) :=
    ⟨le_refl _, fun k q hq => .inl (job?_of_cancelDeferred hq).2⟩
  cases enabled with
  | true =>
    rw [if_pos rfl, switchedOn]
    split
    · exact hflag.trans (grows_armTimer ..)
    · exact hflag
  | false =>
    rw [if_neg (by simp), switchedOff]
    split
    · exact (hflag.trans (grows_disarmTimer ..)).trans (hcancel _)
    · exact hflag.trans (hcancel _)

theorem Step.grows (h : Step now e e') : Grows e e' := by
  cases h with
  | @record f hf =>
    refine ⟨?_, fun k q hq => .inl (job?_of_recordFiring hq)⟩
    unfold recordFiring
    dsimp only
    split
    · rw [nextHandle_disarmTimer]
    · exact le_refl _
  | switch h => exact grows_setEnabled h
  | expire => exact grows_of_register rfl
  | putOff => exact grows_of_register rfl

theorem Steps.grows (h : Steps now e e') : Grows e e' := by
  induction h with
  | refl => exact .refl e
  | tail _ hs ih => exact ih.trans hs.grows

end Old

section ImmediateJobs

def afterJobs (now : Instant) : Nat → Engine → World → Option (Engine × World)
  | 0, e, w => some (e, w)
  | n + 1, e, w =>
    match e.runNext? w now with
    | none => none
    | some (_, e', w') => afterJobs now n e' w'

def AddsDueRuleJob (now : Instant) (e e' : Engine) : Prop :=
  ∃ h r, e'.job? h = some r ∧ r.due ≤ now ∧ r.payload.ref?.isSome ∧ e.schedule.nextHandle ≤ h

/-- From some job on, none leaves a new job of a rule that is due already. -/
def StopsAddingDueJobs (now : Instant) (e : Engine) (w : World) : Prop :=
  ∃ n, ∀ m, n ≤ m → ∀ e₁ w₁ notices e₂ w₂, afterJobs now m e w = some (e₁, w₁) →
    e₁.runNext? w₁ now = some (notices, e₂, w₂) → ¬AddsDueRuleJob now e₁ e₂

theorem afterJobs_succ (h : e.runNext? w now = some (notices, e', w')) (n : Nat) :
    afterJobs now (n + 1) e w = afterJobs now n e' w' := by
  rw [afterJobs, h]

theorem Linked.descends (hl : e.Linked) (h : e.runNext? w now = some (notices, e', w'))
    (hk : ¬AddsDueRuleJob now e e') :
    Descends (fun r : Registration Job => r.payload.ref?.isSome) now e e' := by
  obtain ⟨k, r, hr, hdue, hcases⟩ := runNext?_eq_some hl h
  refine ⟨k, r, hr, hdue, fun j q hq hqdue => ?_⟩
  rcases hcases with ⟨_, _, _, -, rfl⟩ | ⟨stage, run, run', hbegins, hrun, rfl, hf, hleads, rfl⟩
  · exact .inl (hl.due_of_taken hr hq hqdue)
  · have hgrows := hrun ▸ (hleads.steps hf).2.grows
    rcases hgrows.jobs j q hq with hold | hnew
    · exact .inl (hl.due_of_taken hr hold hqdue)
    · right
      have hrule : r.payload.ref?.isSome = true := by
        generalize r.payload = job at hbegins
        cases hbegins <;> rfl
      have hother : q.payload.ref?.isSome = false := by
        by_contra hne
        have hq' := Bool.eq_true_of_not_eq_false hne
        apply hk
        refine ⟨j, q, hq, hqdue, hq', ?_⟩
        rwa [schedule_taken, Schedule.nextHandle_rearm] at hnew
      dsimp only
      rw [hrule, hother]
      exact Bool.false_lt_true

theorem Linked.drains_iff_stopsAddingDueJobs (hl : e.Linked) :
    Drains now e w ↔ StopsAddingDueJobs now e w := by
  constructor
  · intro h
    induction h with
    | rest h =>
      refine ⟨0, fun m _ e₁ w₁ _ _ _ hm hrun => ?_⟩
      cases m with
      | zero =>
        cases hm
        rw [h] at hrun
        cases hrun
      | succ m =>
        rw [afterJobs, h] at hm
        cases hm
    | job h _ ih =>
      obtain ⟨n, hn⟩ := ih (hl.runNext? h)
      refine ⟨n + 1, fun m hm e₁ w₁ notices e₂ w₂ hafter => ?_⟩
      obtain ⟨m, rfl⟩ := Nat.exists_eq_add_of_le' hm
      rw [← Nat.add_assoc, afterJobs_succ h] at hafter
      exact hn _ (Nat.le_add_left n m) _ _ _ _ _ hafter
  -- After `n` jobs the labels descend; before that, one job at a time is run.
  · rintro ⟨n, hn⟩
    induction n generalizing e w with
    | zero =>
      let inv (d : Engine) (v : World) : Prop := d.Linked ∧ ∀ m e₁ w₁ notices e₂ w₂,
        afterJobs now m d v = some (e₁, w₁) → e₁.runNext? w₁ now = some (notices, e₂, w₂) →
          ¬AddsDueRuleJob now e₁ e₂
      have hinv : inv e w := ⟨hl, fun m => hn m (Nat.zero_le m)⟩
      have hstep (d : Engine) (v : World) (notices : List Notice) (d' : Engine) (v' : World)
          (hd : inv d v) (hrun : d.runNext? v now = some (notices, d', v')) :
          inv d' v' ∧ Descends (fun r : Registration Job => r.payload.ref?.isSome) now d d' := by
        obtain ⟨hd, hquiet⟩ := hd
        refine ⟨⟨hd.runNext? hrun, fun m e₁ w₁ notices e₂ w₂ hafter => ?_⟩,
          hd.descends hrun (hquiet 0 _ _ _ _ _ rfl hrun)⟩
        exact hquiet (m + 1) _ _ _ _ _ ((afterJobs_succ hrun m).trans hafter)
      exact drains_of_descends hstep hinv
    | succ n ih =>
      cases hrun : e.runNext? w now with
      | none => exact .rest hrun
      | some t =>
        obtain ⟨notices, e', w'⟩ := t
        refine .job hrun (ih (hl.runNext? hrun) fun m hm e₁ w₁ notices e₂ w₂ hafter => ?_)
        exact hn (m + 1) (Nat.succ_le_succ hm) _ _ _ _ _ ((afterJobs_succ hrun m).trans hafter)

end ImmediateJobs

end WorldTriggers.Engine
