import Mathlib.Data.List.TakeWhile
import WorldTriggers.Proofs.Schedule
import WorldTriggers.TimerQueue

namespace WorldTriggers

variable {α : Type}

def Timer.registration (t : Timer α) : Registration α :=
  ⟨t.due, t.turn, t.period.map (·.1), t.payload⟩

theorem Period.map_ofSpan? (d : Span) :
    (Period.ofSpan? d).map (·.1) = if 0 < d then some d else none := by
  unfold Period.ofSpan?
  split <;> rfl

theorem Instant.after?_congr {t u : Instant} {d e : Span} (h : t + d = u + e) :
    t.after? d = u.after? e := by
  unfold Instant.after?
  rw [h]

theorem grid_succ (due now : Int) {i : Int} (hi : 0 < i) :
    due + ((now - due) / i + 1) * i = due + i + ((now - (due + i)) / i + 1) * i := by
  have hdiv : (now - (due + i)) / i = (now - due) / i - 1 := by
    rw [show now - (due + i) = now - due + (-1) * i by ring, Int.add_mul_ediv_right _ _ hi.ne']
    ring
  rw [hdiv]
  ring

theorem step_le_grid {due now i : Int} (hi : 0 < i) (hdue : due ≤ now) :
    due + i ≤ due + ((now - due) / i + 1) * i := by
  have hdiv : 0 ≤ (now - due) / i := Int.ediv_nonneg (by omega) hi.le
  nlinarith

theorem grid_first {due now i : Int} (hdue : due ≤ now) (hnow : now < due + i) :
    ((now - due) / i + 1) * i = i := by
  rw [Int.ediv_eq_zero_of_lt (by omega) (by omega)]
  ring

theorem catchUp_eq (period : Period) {now due : Instant} (hdue : due ≤ now) :
    catchUp period now due = (due.after? period.1).bind (catchUp period now) := by
  rw [catchUp, dif_pos hdue]
  split
  · simp_all
  · simp_all

theorem catchUp_eq_nextDue? (period : Period) (now due : Instant) (hfirst : Instant.first ≤ due) :
    catchUp period now due = Registration.nextDue? due period.1 now := by
  have hperiod := period.2
  induction due using catchUp.induct period now with
  | case1 due hdue hnone =>
    have hbeyond : ¬due + period.1 ≤ Instant.last := by
      intro hlast
      have hstep := Instant.after?_eq_some_iff.mpr
        ⟨rfl, hfirst.trans (le_add_of_nonneg_right hperiod.le), hlast⟩
      simp [hnone] at hstep
    have hgrid := (not_le.mp hbeyond).trans_le (step_le_grid hperiod hdue)
    rw [catchUp_eq period hdue, hnone, Registration.nextDue?, if_neg (not_lt.mpr hdue),
      Instant.after?, if_neg fun h => absurd h.2 (not_le.mpr hgrid)]
    rfl
  | case2 due hdue next hnext ih =>
    obtain ⟨rfl, hfirst', -⟩ := Instant.after?_eq_some_iff.mp hnext
    rw [catchUp_eq period hdue, hnext, Option.bind_some, ih hfirst', Registration.nextDue?,
      Registration.nextDue?, if_neg (not_lt.mpr hdue)]
    by_cases hnow : now < due + period.1
    · rw [if_pos hnow, grid_first hdue hnow, hnext]
    · rw [if_neg hnow]
      exact Instant.after?_congr (grid_succ due now hperiod).symm
  | case3 due hdue =>
    rw [catchUp, dif_neg hdue, Registration.nextDue?, if_pos (not_le.mp hdue)]

namespace Slot

def key (s : Slot) : Int ×ₗ (Nat ×ₗ Nat) := toLex (s.due, toLex (s.turn, s.handle))

theorem before_iff {a b : Slot} : a.before b ↔ a.key < b.key := by
  simp [before, key, Prod.Lex.toLex_lt_toLex]

end Slot

namespace TimerQueue

theorem mem_push {slot s : Slot} {slots : List Slot} :
    s ∈ push slot slots ↔ s = slot ∨ s ∈ slots := by
  induction slots with
  | nil => simp [push]
  | cons first rest ih =>
    unfold push
    split
    · simp
    · simp only [List.mem_cons, ih]
      tauto

theorem pairwise_push {slot : Slot} {slots : List Slot}
    (h : slots.Pairwise (·.key ≤ ·.key)) : (push slot slots).Pairwise (·.key ≤ ·.key) := by
  induction slots with
  | nil => simp [push]
  | cons first rest ih =>
    obtain ⟨hfirst, hrest⟩ := List.pairwise_cons.mp h
    unfold push
    by_cases hb : slot.before first
    · have hlt := Slot.before_iff.mp hb
      simp only [hb, if_true]
      refine List.pairwise_cons.mpr ⟨fun s hs => ?_, h⟩
      rcases List.mem_cons.mp hs with rfl | hs
      · exact hlt.le
      · exact hlt.le.trans (hfirst s hs)
    · have hle := not_lt.mp (mt Slot.before_iff.mpr hb)
      simp only [hb]
      refine List.pairwise_cons.mpr ⟨fun s hs => ?_, ih hrest⟩
      rcases mem_push.mp hs with rfl | hs
      · exact hle
      · exact hfirst s hs

variable {q : TimerQueue α} {h : Handle} {t : Timer α}

def schedule (q : TimerQueue α) : Schedule α :=
  ⟨q.timers.map Timer.registration, q.nextHandle, q.nextTurn⟩

structure Sound (q : TimerQueue α) : Prop where
  sorted : q.slots.Pairwise (·.key ≤ ·.key)
  queued : ∀ h t, q.timers.get? h = some t → t.slot h ∈ q.slots
  single : ∀ a ∈ q.slots, ∀ b ∈ q.slots, a.turn = b.turn → a = b
  fresh : ∀ a ∈ q.slots, a.turn < q.nextTurn
  started : ∀ h t, q.timers.get? h = some t → Instant.first ≤ t.due

theorem sound_empty : (empty : TimerQueue α).Sound := by
  constructor <;> simp [empty]

theorem Sound.arm (hq : q.Sound) {due : Instant} (hdue : Instant.first ≤ due)
    (period : Option Period) (payload : α) : (q.arm h due period payload).Sound := by
  constructor
  · exact pairwise_push hq.sorted
  · intro k t ht
    simp only [TimerQueue.arm, SortedMap.get?_insert] at ht
    by_cases hk : k = h
    · obtain rfl : _ = t := by simpa [hk] using ht
      exact mem_push.mpr (.inl (by simp [Timer.slot, hk]))
    · exact mem_push.mpr (.inr (hq.queued k t (by simpa [hk] using ht)))
  · intro a ha b hb hab
    rcases mem_push.mp ha with rfl | ha <;> rcases mem_push.mp hb with rfl | hb
    · rfl
    · exact absurd hab.symm (hq.fresh b hb).ne
    · exact absurd hab (hq.fresh a ha).ne
    · exact hq.single a ha b hb hab
  · intro a ha
    rcases mem_push.mp ha with rfl | ha
    · exact Nat.lt_succ_self _
    · exact Nat.lt_succ_of_lt (hq.fresh a ha)
  · intro k t ht
    simp only [TimerQueue.arm, SortedMap.get?_insert] at ht
    by_cases hk : k = h
    · obtain rfl : _ = t := by simpa [hk] using ht
      exact hdue
    · exact hq.started k t (by simpa [hk] using ht)

theorem Sound.register (hq : q.Sound) {due : Instant} (hdue : Instant.first ≤ due)
    (period : Option Period) (payload : α) : (q.register due period payload).2.Sound :=
  let ⟨hsorted, hqueued, hsingle, hfresh, hstarted⟩ := hq.arm hdue period payload
  ⟨hsorted, hqueued, hsingle, hfresh, hstarted⟩

theorem Sound.erase (hq : q.Sound) (h : Handle) :
    ({ q with timers := q.timers.erase h } : TimerQueue α).Sound := by
  have hsub (k : Handle) (t : Timer α) (ht : (q.timers.erase h).get? k = some t) :
      q.timers.get? k = some t := by
    rw [SortedMap.get?_erase] at ht
    split at ht
    · cases ht
    · exact ht
  exact ⟨hq.sorted, fun k t ht => hq.queued k t (hsub k t ht), hq.single, hq.fresh,
    fun k t ht => hq.started k t (hsub k t ht)⟩

theorem Sound.cancel (hq : q.Sound) (h : Handle) : (q.cancel h).2.Sound := by
  unfold TimerQueue.cancel
  split
  · exact hq.erase h
  · exact hq

theorem isLive_iff {slot : Slot} :
    q.isLive slot ↔ ∃ t, q.timers.get? slot.handle = some t ∧ t.turn = slot.turn := by
  simp [isLive, Option.any_eq_true]

theorem Sound.eq_slot (hq : q.Sound) {slot : Slot} (hslot : slot ∈ q.slots)
    (ht : q.timers.get? slot.handle = some t) (hturn : t.turn = slot.turn) :
    slot = t.slot slot.handle :=
  hq.single slot hslot _ (hq.queued _ t ht) hturn.symm

theorem mem_dropStale (slot : Slot) (hslot : slot ∈ q.slots) (hlive : q.isLive slot) :
    slot ∈ q.dropStale.slots := by
  have hsplit : slot ∈ q.slots.takeWhile (fun s => !q.isLive s) ++ q.dropStale.slots := by
    simpa [dropStale, List.takeWhile_append_dropWhile] using hslot
  rcases List.mem_append.mp hsplit with hmem | hmem
  · have := List.mem_takeWhile_imp hmem
    simp [hlive] at this
  · exact hmem

theorem Sound.dropStale (hq : q.Sound) : q.dropStale.Sound := by
  have hsub : q.dropStale.slots.Sublist q.slots := List.dropWhile_sublist _
  constructor
  · exact hq.sorted.sublist hsub
  · intro h t ht
    exact mem_dropStale _ (hq.queued h t ht) (isLive_iff.mpr ⟨t, ht, rfl⟩)
  · exact fun a ha b hb => hq.single a (hsub.subset ha) b (hsub.subset hb)
  · exact fun a ha => hq.fresh a (hsub.subset ha)
  · exact hq.started

theorem live_of_dropStale {slot : Slot} {rest : List Slot} (h : q.dropStale.slots = slot :: rest) :
    q.isLive slot := by
  have hne : q.slots.dropWhile (fun s => !q.isLive s) ≠ [] := by
    intro hnil
    simp [TimerQueue.dropStale, hnil] at h
  have hhead := List.head_dropWhile_not (fun s => !q.isLive s) hne
  have heq : (q.slots.dropWhile fun s => !q.isLive s).head hne = slot := by
    simp only [TimerQueue.dropStale] at h
    simp [h]
  simpa [heq] using hhead

theorem job?_schedule (q : TimerQueue α) (h : Handle) :
    q.schedule.job? h = (q.timers.get? h).map Timer.registration :=
  SortedMap.get?_map _ _ _

theorem rank_le_of_key_le {u : Timer α} {k : Handle} (hle : (t.slot h).key ≤ (u.slot k).key) :
    Schedule.rank t.registration ≤ Schedule.rank u.registration := by
  simp only [Slot.key, Timer.slot, Prod.Lex.toLex_le_toLex, Schedule.rank, Timer.registration] at *
  rcases hle with hlt | ⟨heq, hlt | ⟨hturn, -⟩⟩
  · exact .inl hlt
  · exact .inr ⟨heq, hlt.le⟩
  · exact .inr ⟨heq, hturn.le⟩

theorem Sound.first?_schedule (hq : q.Sound) {slot : Slot} {rest : List Slot}
    (hslots : q.slots = slot :: rest) (ht : q.timers.get? slot.handle = some t)
    (hturn : t.turn = slot.turn) :
    q.schedule.first? = some (slot.handle, t.registration) := by
  have hslot := hq.eq_slot (by simp [hslots]) ht hturn
  have hmem : (slot.handle, t.registration) ∈ q.schedule.jobs.entries := by
    rw [← SortedMap.get?_eq_some_iff]
    exact (job?_schedule q slot.handle).trans (by rw [ht]; rfl)
  cases hf : q.schedule.first? with
  | none =>
    rw [Schedule.firstOf_eq_none_iff.mp hf] at hmem
    simp at hmem
  | some f =>
    obtain ⟨k, r⟩ := f
    have hjob := SortedMap.get?_eq_some_iff.mpr (Schedule.firstOf_mem hf)
    obtain ⟨u, hu, rfl⟩ := Option.map_eq_some_iff.mp ((job?_schedule q k).symm.trans hjob)
    have hle : Schedule.rank u.registration ≤ Schedule.rank t.registration :=
      Schedule.firstOf_rank_le hf hmem
    -- The first registration is queued somewhere, and the slots are in the order of the ranks.
    have hge : Schedule.rank t.registration ≤ Schedule.rank u.registration := by
      have hkey : slot.key ≤ (u.slot k).key := by
        have hsorted := hq.sorted
        rw [hslots] at hsorted
        have hqueued := hq.queued k u hu
        rw [hslots] at hqueued
        rcases List.mem_cons.mp hqueued with heq | hin
        · rw [heq]
        · exact (List.pairwise_cons.mp hsorted).1 _ hin
      rw [hslot] at hkey
      exact rank_le_of_key_le hkey
    have hsame : u.turn = t.turn := congrArg (fun r => (ofLex r).2) (le_antisymm hle hge)
    have heq := hq.single _ (hq.queued k u hu) slot (by simp [hslots]) (hsame.trans hturn)
    have hk : k = slot.handle := congrArg Slot.handle heq
    subst hk
    rw [ht] at hu
    cases hu
    rfl

theorem nextTime?_registration (hfirst : Instant.first ≤ t.due) (now : Instant) :
    (t.period.bind fun period => catchUp period now t.due) =
      Schedule.nextTime? t.registration now := by
  simp only [Schedule.nextTime?, Timer.registration]
  cases t.period with
  | none => rfl
  | some period => exact catchUp_eq_nextDue? period now t.due hfirst

theorem schedule_arm (q : TimerQueue α) (h : Handle) (due : Instant) (period : Option Period)
    (payload : α) :
    (q.arm h due period payload).schedule = {
      q.schedule with
      jobs := q.schedule.jobs.insert h ⟨due, q.nextTurn, period.map (·.1), payload⟩
      nextTurn := q.nextTurn + 1 } := by
  simp only [schedule, TimerQueue.arm, SortedMap.map_insert]
  rfl

theorem schedule_register (q : TimerQueue α) (due : Instant) (period : Option Period)
    (payload : α) :
    (q.register due period payload).2.schedule =
      (q.schedule.register due (period.map (·.1)) payload).2 := by
  have harm := schedule_arm q q.nextHandle due period payload
  exact congrArg (fun s : Schedule α => { s with nextHandle := q.nextHandle + 1 }) harm

theorem isPending_schedule (q : TimerQueue α) (h : Handle) :
    q.schedule.isPending h = q.isPending h := by
  rw [Schedule.isPending_eq, job?_schedule, Option.isSome_map]
  rfl

theorem cancel_fst (q : TimerQueue α) (h : Handle) : (q.cancel h).1 = q.isPending h := by
  unfold cancel
  split
  · simp [*]
  · simp_all

theorem cancel_of_not_pending (hnot : q.isPending h = false) : q.cancel h = (false, q) := by
  simp [cancel, hnot]

theorem cancel_of_pending (hpending : q.isPending h) :
    q.cancel h = (true, { q with timers := q.timers.erase h }) := by
  simp [cancel, hpending]

theorem schedule_cancel (q : TimerQueue α) (h : Handle) :
    (q.cancel h).2.schedule = q.schedule.cancel h := by
  cases hp : q.isPending h with
  | false =>
    have hnone : q.schedule.jobs.get? h = none := by
      rw [← SortedMap.contains_eq_false_iff]
      exact (isPending_schedule q h).trans hp
    rw [cancel_of_not_pending hp, Schedule.cancel, SortedMap.erase_eq_self hnone]
  | true => simp [cancel_of_pending hp, schedule, Schedule.cancel, SortedMap.map_erase]

theorem arm_erase (q : TimerQueue α) (h : Handle) (due : Instant) (period : Option Period)
    (payload : α) :
    ({ q with timers := q.timers.erase h } : TimerQueue α).arm h due period payload =
      q.arm h due period payload := by
  simp [TimerQueue.arm, SortedMap.insert_erase]

theorem Sound.goOn (hq : q.Sound) {slot : Slot} {rest : List Slot} (hslots : q.slots = slot :: rest)
    (ht : q.timers.get? slot.handle = some t) (hturn : t.turn = slot.turn) (now : Instant) :
    (({ q with slots := rest } : TimerQueue α).goOn slot t now).Sound ∧
      (({ q with slots := rest } : TimerQueue α).goOn slot t now).schedule =
        q.schedule.rearm slot.handle t.registration now := by
  have hslot := hq.eq_slot (by simp [hslots]) ht hturn
  have hdue : slot.due = t.due := congrArg Slot.due hslot
  have hstarted := hq.started _ t ht
  have htaken : ({ q with slots := rest, timers := q.timers.erase slot.handle } :
      TimerQueue α).Sound := by
    have hsub : rest.Sublist q.slots := hslots ▸ List.sublist_cons_self slot rest
    have herase := hq.erase slot.handle
    refine ⟨hq.sorted.sublist hsub, fun k u hu => ?_,
      fun a ha b hb => hq.single a (hsub.subset ha) b (hsub.subset hb),
      fun a ha => hq.fresh a (hsub.subset ha), herase.started⟩
    have hqueued := herase.queued k u hu
    rw [show ({ q with timers := q.timers.erase slot.handle } : TimerQueue α).slots = q.slots from
      rfl, hslots] at hqueued
    rcases List.mem_cons.mp hqueued with heq | hin
    · have hk : k = slot.handle := congrArg Slot.handle heq
      simp [hk, SortedMap.get?_erase] at hu
    · exact hin
  have hnext := nextTime?_registration hstarted now
  rw [← hdue] at hnext
  unfold TimerQueue.goOn
  rw [hnext]
  cases hn : Schedule.nextTime? t.registration now with
  | none =>
    refine ⟨htaken, ?_⟩
    rw [Schedule.rearm_of_none hn]
    simp only [schedule, Schedule.cancel, SortedMap.map_erase]
  | some due =>
    have hfirst : Instant.first ≤ due := Schedule.first_le_of_nextTime? hstarted hn
    rw [Schedule.rearm_of_some hn]
    refine ⟨?_, schedule_arm _ _ _ _ _⟩
    dsimp only
    rw [← arm_erase]
    exact htaken.arm hfirst t.period t.payload

theorem Sound.first_cases (hq : q.Sound) :
    (q.dropStale.slots = [] ∧ q.schedule.first? = none) ∨
      ∃ slot rest t, q.dropStale.slots = slot :: rest ∧ q.timers.get? slot.handle = some t ∧
        t.turn = slot.turn ∧ t.due = slot.due ∧
        q.schedule.first? = some (slot.handle, t.registration) := by
  cases hslots : q.dropStale.slots with
  | nil =>
    refine .inl ⟨rfl, ?_⟩
    cases hf : q.schedule.first? with
    | none => rfl
    | some f =>
      have hjob := SortedMap.get?_eq_some_iff.mpr (Schedule.firstOf_mem hf)
      obtain ⟨t, ht, -⟩ := Option.map_eq_some_iff.mp ((job?_schedule q f.1).symm.trans hjob)
      have hin := hq.dropStale.queued f.1 t ht
      simp [hslots] at hin
  | cons slot rest =>
    obtain ⟨t, ht, hturn⟩ := isLive_iff.mp (live_of_dropStale hslots)
    have hslot := hq.dropStale.eq_slot (by simp [hslots]) ht hturn
    exact .inr ⟨slot, rest, t, rfl, ht, hturn, (congrArg Slot.due hslot).symm,
      hq.dropStale.first?_schedule hslots ht hturn⟩

theorem Sound.nextDeadline (hq : q.Sound) :
    q.nextDeadline.1 = q.schedule.nextDeadline? ∧ q.nextDeadline.2.schedule = q.schedule ∧
      q.nextDeadline.2.Sound := by
  refine ⟨?_, rfl, hq.dropStale⟩
  rcases hq.first_cases with ⟨hslots, hfirst⟩ | ⟨slot, rest, t, hslots, -, -, hdue, hfirst⟩
  · simp [TimerQueue.nextDeadline, Schedule.nextDeadline?, hslots, hfirst]
  · simp [TimerQueue.nextDeadline, Schedule.nextDeadline?, hslots, hfirst, ← hdue,
      Timer.registration]

theorem Sound.popDue (hq : q.Sound) (now : Instant) :
    (q.popDue now).1 = (q.schedule.popDue? now).map (fun p => (p.1, p.2.1)) ∧
      (q.popDue now).2.schedule =
        ((q.schedule.popDue? now).map (·.2.2)).getD q.schedule ∧
      (q.popDue now).2.Sound := by
  unfold TimerQueue.popDue Schedule.popDue?
  rcases hq.first_cases with ⟨hslots, hfirst⟩ | ⟨slot, rest, t, hslots, ht, hturn, hdue, hfirst⟩
  · simp only [hslots, hfirst]
    exact ⟨rfl, rfl, hq.dropStale⟩
  · have hget : q.dropStale.timers.get? slot.handle = some t := ht
    have hreg : t.registration.due = slot.due := hdue
    simp only [hslots, hfirst, hreg]
    by_cases hnow : now < slot.due
    · simp only [hnow, if_true, not_le.mpr hnow, if_false]
      exact ⟨rfl, rfl, hq.dropStale⟩
    · obtain ⟨hsound, hschedule⟩ := hq.dropStale.goOn hslots ht hturn now
      simp only [hnow, if_false, not_lt.mp hnow, if_true, hget]
      exact ⟨rfl, hschedule, hsound⟩

theorem Sound.popAllDue (hq : q.Sound) (now : Instant) (limit : Nat) :
    (q.popAllDue now limit).1 = (q.schedule.popAllDue now limit).1 ∧
      (q.popAllDue now limit).2.schedule = (q.schedule.popAllDue now limit).2 ∧
      (q.popAllDue now limit).2.Sound := by
  induction limit generalizing q with
  | zero => exact ⟨rfl, rfl, hq⟩
  | succ limit ih =>
    obtain ⟨hpopped, hschedule, hsound⟩ := hq.popDue now
    rw [TimerQueue.popAllDue, Schedule.popAllDue]
    generalize q.popDue now = p at *
    obtain ⟨popped, rest⟩ := p
    cases hp : q.schedule.popDue? now with
    | none =>
      rw [hp] at hpopped hschedule
      obtain rfl : popped = none := hpopped
      exact ⟨rfl, hschedule, hsound⟩
    | some p =>
      obtain ⟨h, payload, s⟩ := p
      rw [hp] at hpopped hschedule
      obtain rfl : popped = some (h, payload) := hpopped
      obtain rfl : rest.schedule = s := hschedule
      obtain ⟨hpayloads, hend, hlast⟩ := ih hsound
      exact ⟨congrArg (payload :: ·) hpayloads, hend, hlast⟩

theorem Sound.drain (hq : q.Sound) (now : Instant) :
    (q.drain now).1 = (q.schedule.drain now).1 ∧
      (q.drain now).2.schedule = (q.schedule.drain now).2 ∧ (q.drain now).2.Sound := by
  have hsize : q.schedule.size = q.size := SortedMap.size_map _ _
  rw [TimerQueue.drain, Schedule.drain, hsize]
  exact hq.popAllDue now q.size

end TimerQueue

end WorldTriggers
