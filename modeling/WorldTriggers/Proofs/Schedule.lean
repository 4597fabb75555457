import Mathlib.Tactic
import WorldTriggers.Schedule

namespace WorldTriggers.Schedule

variable {α : Type}

def job? (s : Schedule α) (h : Handle) : Option (Registration α) := s.jobs.get? h

theorem isPending_eq (s : Schedule α) (h : Handle) : s.isPending h = (s.job? h).isSome := rfl

theorem job?_register (s : Schedule α) (due : Instant) (interval : Option Span) (payload : α)
    (h : Handle) :
    (s.register due interval payload).2.job? h =
      if h = s.nextHandle then some ⟨due, s.nextTurn, interval, payload⟩ else s.job? h := by
  simp [job?, register, SortedMap.get?_insert]

@[simp] theorem nextHandle_register (s : Schedule α) (due : Instant) (interval : Option Span)
    (payload : α) : (s.register due interval payload).2.nextHandle = s.nextHandle + 1 := rfl

theorem job?_cancel (s : Schedule α) (k h : Handle) :
    (s.cancel k).job? h = if h = k then none else s.job? h := by
  simp [job?, cancel, SortedMap.get?_erase]

theorem job?_cancelWhere (s : Schedule α) (p : Handle → Bool) (h : Handle) :
    (s.cancelWhere p).job? h = if p h then none else s.job? h := by
  simp only [job?, cancelWhere, SortedMap.get?_filter]
  cases s.jobs.get? h <;> cases p h <;> simp

@[simp] theorem nextHandle_rearm (s : Schedule α) (h : Handle) (r : Registration α)
    (now : Instant) : (s.rearm h r now).nextHandle = s.nextHandle := by
  unfold rearm
  split <;> rfl

def nextTime? (r : Registration α) (now : Instant) : Option Instant :=
  r.interval.bind fun i => Registration.nextDue? r.due i now

theorem rearm_of_none {r : Registration α} {now : Instant} (hn : nextTime? r now = none)
    (s : Schedule α) (h : Handle) : s.rearm h r now = s.cancel h := by
  unfold nextTime? at hn
  rw [rearm, hn]

theorem rearm_of_some {r : Registration α} {now due : Instant} (hn : nextTime? r now = some due)
    (s : Schedule α) (h : Handle) :
    s.rearm h r now = {
      s with
      jobs := s.jobs.insert h { r with due := due, turn := s.nextTurn }
      nextTurn := s.nextTurn + 1 } := by
  unfold nextTime? at hn
  rw [rearm, hn]

theorem job?_rearm (s : Schedule α) (h : Handle) (r : Registration α) (now : Instant)
    (k : Handle) :
    (s.rearm h r now).job? k =
      if k = h then
        (nextTime? r now).map fun due => { r with due := due, turn := s.nextTurn }
      else s.job? k := by
  cases hn : nextTime? r now with
  | none => simp [rearm_of_none hn, job?_cancel]
  | some due => simp [rearm_of_some hn, job?, SortedMap.get?_insert]

theorem grid_bounds (due now interval : Int) (hi : 0 < interval) :
    now < due + ((now - due) / interval + 1) * interval ∧
      due + ((now - due) / interval + 1) * interval ≤ now + interval := by
  have hdiv := Int.mul_ediv_add_emod (now - due) interval
  have hnonneg := Int.emod_nonneg (now - due) hi.ne'
  have hlt := Int.emod_lt_of_pos (now - due) hi
  have hmul : ((now - due) / interval + 1) * interval =
      interval * ((now - due) / interval) + interval := by ring
  rw [hmul]
  omega

theorem lt_of_nextDue? {due now next : Instant} {interval : Span} (hi : 0 < interval)
    (h : Registration.nextDue? due interval now = some next) : now < next := by
  unfold Registration.nextDue? at h
  split at h
  · cases h
    assumption
  · obtain ⟨rfl, -, -⟩ := Instant.after?_eq_some_iff.mp h
    exact (grid_bounds due now interval hi).1

theorem first_le_of_nextTime? {r : Registration α} {now due : Instant}
    (hfirst : Instant.first ≤ r.due) (hd : nextTime? r now = some due) : Instant.first ≤ due := by
  unfold nextTime? at hd
  obtain ⟨i, -, hd⟩ := Option.bind_eq_some_iff.mp hd
  unfold Registration.nextDue? at hd
  split at hd
  · rwa [← Option.some.inj hd]
  · exact (Instant.after?_eq_some_iff.mp hd).2.1

theorem nextDue?_isSome {due now : Instant} {interval : Span} (hi : 0 < interval)
    (hdue : due ≤ now) (hfirst : Instant.first ≤ due) (hlast : now + interval ≤ Instant.last) :
    (Registration.nextDue? due interval now).isSome := by
  obtain ⟨hlt, hle⟩ := grid_bounds due now interval hi
  unfold Registration.nextDue?
  rw [if_neg (not_lt.mpr hdue), Option.isSome_iff_exists]
  exact ⟨_, Instant.after?_eq_some_iff.mpr
    ⟨rfl, (hfirst.trans hdue).trans hlt.le, hle.trans hlast⟩⟩

theorem firstOf_eq_none_iff {es : List (Handle × Registration α)} :
    firstOf es = none ↔ es = [] := by
  cases es with
  | nil => simp [firstOf]
  | cons e rest =>
    simp only [firstOf, reduceCtorEq, iff_false]
    cases firstOf rest with
    | none => simp
    | some f => dsimp only; split <;> simp

theorem firstOf_mem {es : List (Handle × Registration α)} {f : Handle × Registration α}
    (h : firstOf es = some f) : f ∈ es := by
  induction es generalizing f with
  | nil => simp [firstOf] at h
  | cons e rest ih =>
    simp only [firstOf] at h
    cases hr : firstOf rest with
    | none => simp_all
    | some g =>
      rw [hr] at h
      dsimp only at h
      split at h
      · cases h
        exact List.mem_cons_of_mem _ (ih hr)
      · cases h
        exact List.mem_cons_self

def rank (r : Registration α) : Int ×ₗ Nat := toLex (r.due, r.turn)

theorem before_iff {a b : Registration α} : a.before b ↔ rank a < rank b := by
  simp [Registration.before, rank, Prod.Lex.toLex_lt_toLex]

theorem due_le_of_rank_le {a b : Registration α} (h : rank a ≤ rank b) : a.due ≤ b.due :=
  Prod.Lex.monotone_fst _ _ h

theorem firstOf_rank_le {es : List (Handle × Registration α)} {f e : Handle × Registration α}
    (h : firstOf es = some f) (he : e ∈ es) : rank f.2 ≤ rank e.2 := by
  induction es generalizing f with
  | nil => simp at he
  | cons d rest ih =>
    simp only [firstOf] at h
    cases hr : firstOf rest with
    | none =>
      obtain rfl := firstOf_eq_none_iff.mp hr
      simp_all
    | some g =>
      rw [hr] at h
      dsimp only at h
      by_cases hb : g.2.before d.2
      · obtain rfl : g = f := by simpa [hb] using h
        rcases List.mem_cons.mp he with rfl | he
        · exact (before_iff.mp hb).le
        · exact ih hr he
      · obtain rfl : d = f := by simpa [hb] using h
        rw [before_iff, not_lt] at hb
        rcases List.mem_cons.mp he with rfl | he
        · exact le_rfl
        · exact hb.trans (ih hr he)

theorem firstOf_due_le {es : List (Handle × Registration α)} {f e : Handle × Registration α}
    (h : firstOf es = some f) (he : e ∈ es) : f.2.due ≤ e.2.due :=
  due_le_of_rank_le (firstOf_rank_le h he)

theorem popDue?_eq_some {s t : Schedule α} {now : Instant} {h : Handle} {payload : α}
    (hp : s.popDue? now = some (h, payload, t)) :
    ∃ r, s.job? h = some r ∧ r.payload = payload ∧ r.due ≤ now ∧ t = s.rearm h r now := by
  unfold popDue? at hp
  split at hp
  · cases hp
  · rename_i k r hf
    split at hp
    · rename_i hd
      cases hp
      exact ⟨r, SortedMap.get?_eq_some_iff.mpr (firstOf_mem hf), rfl, hd, rfl⟩
    · cases hp

theorem rank_le_of_popDue? {s t : Schedule α} {now : Instant} {h k : Handle} {payload : α}
    {r u : Registration α} (hp : s.popDue? now = some (h, payload, t)) (hr : s.job? h = some r)
    (hu : s.job? k = some u) : rank r ≤ rank u := by
  unfold popDue? at hp
  split at hp
  · cases hp
  · rename_i k q hf
    have hq := SortedMap.get?_eq_some_iff.mpr (firstOf_mem hf)
    split at hp
    · cases hp
      obtain rfl := Option.some.inj (hr.symm.trans hq)
      exact firstOf_rank_le hf (SortedMap.get?_eq_some_iff.mp hu)
    · cases hp

theorem popDue?_eq_none_iff {s : Schedule α} {now : Instant} :
    s.popDue? now = none ↔ ∀ h r, s.job? h = some r → now < r.due := by
  unfold popDue?
  cases hf : s.first? with
  | none =>
    have hnil := firstOf_eq_none_iff.mp hf
    simp only [true_iff]
    intro h r hr
    have := SortedMap.get?_eq_some_iff.mp hr
    simp [hnil] at this
  | some f =>
    obtain ⟨k, r⟩ := f
    simp only [ite_eq_right_iff, reduceCtorEq, imp_false, not_le]
    constructor
    · intro hlt h q hq
      exact hlt.trans_le (firstOf_due_le hf (SortedMap.get?_eq_some_iff.mp hq))
    · intro hall
      exact hall k r (SortedMap.get?_eq_some_iff.mpr (firstOf_mem hf))

end WorldTriggers.Schedule
