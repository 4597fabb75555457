import WorldTriggers.Proofs.TimerQueue

/-!
Calls to a queue of timers, in any order. The queue answers them as the schedule does, which keeps
nothing but the live registrations.
-/

namespace WorldTriggers

variable {α : Type}

inductive TimerCall (α : Type)
  | once (due : Instant) (payload : α)
  | every (due : Instant) (interval : Span) (payload : α)
  | cancel (h : Handle)
  | isPending (h : Handle)
  | size
  | nextDeadline
  | popDue (now : Instant)

inductive TimerReply (α : Type)
  | handle (h : Handle)
  | flag (b : Bool)
  | count (n : Nat)
  | deadline (due : Option Instant)
  | popped (timer : Option (Handle × α))
  deriving DecidableEq

structure Booking (α : Type) where
  first : Instant
  period : Option Period
  payload : α

namespace Booking

def point (b : Booking α) (k : Nat) : Instant :=
  match b.period with
  | none => b.first
  | some period => b.first + k * period.1

structure Fits (b : Booking α) (r : Registration α) : Prop where
  interval : r.interval = b.period.map (·.1)
  payload : r.payload = b.payload
  due : ∃ k, r.due = b.point k

/-- What a registration leaves when it comes up: one that recurs is due at the first of its points that
is still to come. -/
def Leaves (b : Booking α) (r : Registration α) (turn : Nat) (now : Instant)
    (next : Option (Registration α)) : Prop :=
  match b.period with
  | none => next = none
  | some _ => ∃ n, now < b.point n ∧ (∀ m < n, b.point m ≤ now) ∧
      next = if b.point n ≤ Instant.last then some { r with due := b.point n, turn := turn } else none

variable {b : Booking α} {r : Registration α} {now : Instant}

@[simp] theorem point_zero (b : Booking α) : b.point 0 = b.first := by
  unfold point
  cases b.period <;> simp

theorem point_mono (b : Booking α) {m n : Nat} (h : m ≤ n) : b.point m ≤ b.point n := by
  unfold point
  cases b.period with
  | none => exact le_rfl
  | some period =>
    have hle : (m : Int) * period.1 ≤ n * period.1 :=
      mul_le_mul_of_nonneg_right (Int.ofNat_le.mpr h) period.2.le
    exact add_le_add_right hle b.first

theorem exists_next_point {period : Period} (hp : b.period = some period) {k : Nat}
    (hdue : b.point k ≤ now) :
    ∃ n, b.point n = b.point k + ((now - b.point k) / period.1 + 1) * period.1 ∧
      now < b.point n ∧ ∀ m < n, b.point m ≤ now := by
  have hperiod := period.2
  have hdiv : 0 ≤ (now - b.point k) / period.1 :=
    Int.ediv_nonneg (sub_nonneg.mpr hdue) hperiod.le
  obtain ⟨j, hj⟩ := Int.eq_ofNat_of_zero_le hdiv
  have hpoint : b.point (k + j + 1) = b.point k + ((now - b.point k) / period.1 + 1) * period.1 := by
    rw [hj]
    simp only [point, hp]
    push_cast
    ring
  obtain ⟨hlt, hle⟩ := Schedule.grid_bounds (b.point k) now period.1 hperiod
  refine ⟨k + j + 1, hpoint, hpoint ▸ hlt, fun m hm => ?_⟩
  have hprev : b.point (k + j) = b.point (k + j + 1) - period.1 := by
    simp only [point, hp]
    push_cast
    ring
  have hmono := b.point_mono (Nat.le_of_lt_succ hm)
  rw [hprev, hpoint] at hmono
  exact hmono.trans (sub_le_iff_le_add.mpr hle)

theorem Fits.exists_next (h : b.Fits r) {period : Period} (hp : b.period = some period)
    (hdue : r.due ≤ now) :
    ∃ n, now < b.point n ∧ (∀ m < n, b.point m ≤ now) ∧ ∀ due,
      Schedule.nextTime? r now = some due ↔
        due = b.point n ∧ Instant.first ≤ due ∧ due ≤ Instant.last := by
  obtain ⟨k, hk⟩ := h.due
  obtain ⟨n, hn, hlt, hleast⟩ := exists_next_point hp (hk ▸ hdue)
  refine ⟨n, hlt, hleast, fun due => ?_⟩
  have hnext : Schedule.nextTime? r now =
      r.due.after? (((now - r.due) / period.1 + 1) * period.1) := by
    simp only [Schedule.nextTime?, h.interval, hp, Option.map_some, Option.bind_some,
      Registration.nextDue?]
    exact if_neg (not_lt.mpr hdue)
  rw [hnext, Instant.after?_eq_some_iff, hk, ← hn]

theorem nextTime?_of_once (h : b.Fits r) (hp : b.period = none) (now : Instant) :
    Schedule.nextTime? r now = none := by
  simp [Schedule.nextTime?, h.interval, hp]

theorem Fits.leaves (h : b.Fits r) (hfirst : Instant.first ≤ r.due) (hdue : r.due ≤ now)
    (turn : Nat) :
    b.Leaves r turn now
      ((Schedule.nextTime? r now).map fun due => { r with due := due, turn := turn }) := by
  unfold Leaves
  cases hp : b.period with
  | none => simp [nextTime?_of_once h hp]
  | some period =>
    obtain ⟨n, hlt, hleast, hnext⟩ := h.exists_next hp hdue
    refine ⟨n, hlt, hleast, ?_⟩
    by_cases hlast : b.point n ≤ Instant.last
    · have hsome := (hnext (b.point n)).mpr ⟨rfl, (hfirst.trans hdue).trans hlt.le, hlast⟩
      simp [hsome, hlast]
    · have hnone : Schedule.nextTime? r now = none := by
        apply Option.eq_none_iff_forall_ne_some.mpr
        intro due hdue
        obtain ⟨rfl, -, hle⟩ := (hnext due).mp hdue
        exact hlast hle
      simp [hnone, hlast]

theorem Fits.next (h : b.Fits r) (hdue : r.due ≤ now) {due : Instant}
    (hsome : Schedule.nextTime? r now = some due) (turn : Nat) :
    b.Fits { r with due := due, turn := turn } := by
  refine ⟨h.interval, h.payload, ?_⟩
  cases hp : b.period with
  | none => simp [nextTime?_of_once h hp] at hsome
  | some period =>
    obtain ⟨n, -, -, hnext⟩ := h.exists_next hp hdue
    exact ⟨n, ((hnext due).mp hsome).1⟩

end Booking

namespace TimerCall

def booking? : TimerCall α → Option (Booking α)
  | .once due payload => some ⟨due, none, payload⟩
  | .every due interval payload => some ⟨due, Period.ofSpan? interval, payload⟩
  | _ => none

def bookings (calls : List (TimerCall α)) : List (Booking α) := calls.filterMap booking?

def bookingOf? (calls : List (TimerCall α)) : Handle → Option (Booking α)
  | 0 => none
  | i + 1 => (bookings calls)[i]?

theorem bookingOf?_concat {calls : List (TimerCall α)} {h : Handle} {b : Booking α}
    (hb : bookingOf? calls h = some b) (call : TimerCall α) :
    bookingOf? (calls ++ [call]) h = some b := by
  cases h with
  | zero => cases hb
  | succ i =>
    obtain ⟨hi, -⟩ := List.getElem?_eq_some_iff.mp hb
    rw [bookingOf?, bookings, List.filterMap_append]
    exact (List.getElem?_append_left hi).trans hb

theorem lt_of_bookingOf? {calls : List (TimerCall α)} {h : Handle} {b : Booking α}
    (hb : bookingOf? calls h = some b) : h < (bookings calls).length + 1 := by
  cases h with
  | zero => cases hb
  | succ i =>
    obtain ⟨hi, -⟩ := List.getElem?_eq_some_iff.mp hb
    exact Nat.succ_lt_succ hi

def Timely (call : TimerCall α) : Prop := ∀ b ∈ call.booking?, Instant.first ≤ b.first

instance (call : TimerCall α) : Decidable call.Timely :=
  inferInstanceAs (Decidable (∀ b ∈ call.booking?, Instant.first ≤ b.first))

section

variable {σ : Type} (step : σ → TimerCall α → TimerReply α × σ)

def replies (s : σ) : List (TimerCall α) → List (TimerReply α)
  | [] => []
  | call :: calls => (step s call).1 :: replies (step s call).2 calls

def after (s : σ) (calls : List (TimerCall α)) : σ :=
  calls.foldl (fun s call => (step s call).2) s

theorem after_concat (s : σ) (calls : List (TimerCall α)) (call : TimerCall α) :
    after step s (calls ++ [call]) = (step (after step s calls) call).2 := by
  simp [after]

end

end TimerCall

namespace TimerQueue

def answer (q : TimerQueue α) : TimerCall α → TimerReply α × TimerQueue α
  | .once due payload => let (h, q) := q.once due payload; (.handle h, q)
  | .every due interval payload => let (h, q) := q.every due interval payload; (.handle h, q)
  | .cancel h => let (b, q) := q.cancel h; (.flag b, q)
  | .isPending h => (.flag (q.isPending h), q)
  | .size => (.count q.size, q)
  | .nextDeadline => let (due, q) := q.nextDeadline; (.deadline due, q)
  | .popDue now => let (timer, q) := q.popDue now; (.popped timer, q)

end TimerQueue

namespace Schedule

def answer (s : Schedule α) : TimerCall α → TimerReply α × Schedule α
  | .once due payload => let (h, s) := s.once due payload; (.handle h, s)
  | .every due interval payload => let (h, s) := s.every due interval payload; (.handle h, s)
  | .cancel h => (.flag (s.isPending h), s.cancel h)
  | .isPending h => (.flag (s.isPending h), s)
  | .size => (.count s.size, s)
  | .nextDeadline => (.deadline s.nextDeadline?, s)
  | .popDue now =>
    match s.popDue? now with
    | some (h, payload, s) => (.popped (some (h, payload)), s)
    | none => (.popped none, s)

theorem answer_popDue_of_none {s : Schedule α} {now : Instant} (hp : s.popDue? now = none) :
    s.answer (.popDue now) = (.popped none, s) := by
  simp [answer, hp]

theorem answer_popDue_of_some {s t : Schedule α} {now : Instant} {h : Handle} {payload : α}
    (hp : s.popDue? now = some (h, payload, t)) :
    s.answer (.popDue now) = (.popped (some (h, payload)), t) := by
  simp [answer, hp]

structure Books (s : Schedule α) (calls : List (TimerCall α)) : Prop where
  issued : s.nextHandle = (TimerCall.bookings calls).length + 1
  booked : ∀ h r, s.job? h = some r → ∃ b, TimerCall.bookingOf? calls h = some b ∧ b.Fits r

variable {s t : Schedule α} {calls : List (TimerCall α)} {call : TimerCall α}

theorem books_empty : (empty : Schedule α).Books [] := by
  constructor
  · rfl
  · intro h r hr
    simp [job?, empty] at hr

theorem Books.register (hs : s.Books calls) {b : Booking α} (hb : call.booking? = some b) :
    (s.register b.first (b.period.map (·.1)) b.payload).2.Books (calls ++ [call]) := by
  constructor
  · simp [TimerCall.bookings, hb, hs.issued]
  · intro h r hr
    rw [job?_register] at hr
    by_cases hh : h = s.nextHandle
    · obtain rfl : _ = r := by simpa [hh] using hr
      refine ⟨b, ?_, rfl, rfl, 0, by simp⟩
      rw [hh, hs.issued]
      simp [TimerCall.bookingOf?, TimerCall.bookings, hb]
    · obtain ⟨b', hb', hfits⟩ := hs.booked h r (by simpa [hh] using hr)
      exact ⟨b', TimerCall.bookingOf?_concat hb' call, hfits⟩

theorem Books.of_jobs (hs : s.Books calls) (hcall : call.booking? = none)
    (hhandle : t.nextHandle = s.nextHandle)
    (hjobs : ∀ h r, t.job? h = some r → ∃ r', s.job? h = some r' ∧
      ∀ b : Booking α, b.Fits r' → b.Fits r) :
    t.Books (calls ++ [call]) := by
  constructor
  · simp [TimerCall.bookings, hcall, hhandle, hs.issued]
  · intro h r hr
    obtain ⟨r', hr', hfits⟩ := hjobs h r hr
    obtain ⟨b, hb, hfit⟩ := hs.booked h r' hr'
    exact ⟨b, TimerCall.bookingOf?_concat hb call, hfits b hfit⟩

theorem Books.answer (hs : s.Books calls) (call : TimerCall α) :
    (s.answer call).2.Books (calls ++ [call]) := by
  have hsame {call : TimerCall α} (hcall : call.booking? = none) : s.Books (calls ++ [call]) :=
    hs.of_jobs hcall rfl fun h r hr => ⟨r, hr, fun _ => id⟩
  cases call with
  | once due payload => exact hs.register (b := ⟨due, none, payload⟩) rfl
  | every due interval payload =>
    have hbooking : (TimerCall.every due interval payload).booking? =
        some ⟨due, Period.ofSpan? interval, payload⟩ := rfl
    have hbook := hs.register hbooking
    rwa [Period.map_ofSpan?] at hbook
  | cancel h =>
    refine hs.of_jobs rfl rfl fun k r hr => ⟨r, ?_, fun _ => id⟩
    simp only [Schedule.answer, job?_cancel] at hr
    split at hr
    · cases hr
    · exact hr
  | isPending h => exact hsame rfl
  | size => exact hsame rfl
  | nextDeadline => exact hsame rfl
  | popDue now =>
    cases hp : s.popDue? now with
    | none =>
      rw [answer_popDue_of_none hp]
      exact hsame rfl
    | some p =>
      obtain ⟨h, payload, t⟩ := p
      rw [answer_popDue_of_some hp]
      obtain ⟨r, hr, -, hdue, rfl⟩ := popDue?_eq_some hp
      refine hs.of_jobs rfl (nextHandle_rearm _ _ _ _) fun k u hu => ?_
      simp only [job?_rearm] at hu
      by_cases hk : k = h
      · obtain ⟨due, hnext, rfl⟩ := Option.map_eq_some_iff.mp (by simpa [hk] using hu)
        exact ⟨r, hk ▸ hr, fun b hb => hb.next hdue hnext _⟩
      · exact ⟨u, by simpa [hk] using hu, fun _ => id⟩

theorem books_after (calls : List (TimerCall α)) :
    (TimerCall.after answer empty calls).Books calls := by
  induction calls using List.reverseRecOn with
  | nil => exact books_empty
  | append_singleton calls call ih =>
    rw [TimerCall.after_concat]
    exact ih.answer call

end Schedule

namespace TimerQueue

variable {q : TimerQueue α}

theorem Sound.answer (hq : q.Sound) {call : TimerCall α} (hcall : call.Timely) :
    (q.answer call).1 = (q.schedule.answer call).1 ∧
      (q.answer call).2.schedule = (q.schedule.answer call).2 ∧ (q.answer call).2.Sound := by
  cases call with
  | once due payload =>
    exact ⟨rfl, schedule_register q due none payload, hq.register (hcall _ rfl) none payload⟩
  | every due interval payload =>
    have hregister := schedule_register q due (Period.ofSpan? interval) payload
    rw [Period.map_ofSpan?] at hregister
    exact ⟨rfl, hregister, hq.register (hcall _ rfl) _ payload⟩
  | cancel h =>
    have hflag := (cancel_fst q h).trans (isPending_schedule q h).symm
    exact ⟨congrArg TimerReply.flag hflag, schedule_cancel q h, hq.cancel h⟩
  | isPending h => exact ⟨congrArg _ (isPending_schedule q h).symm, rfl, hq⟩
  | size => exact ⟨congrArg _ (SortedMap.size_map _ _).symm, rfl, hq⟩
  | nextDeadline =>
    obtain ⟨hdue, hschedule, hsound⟩ := hq.nextDeadline
    exact ⟨congrArg _ hdue, hschedule, hsound⟩
  | popDue now =>
    obtain ⟨hpopped, hschedule, hsound⟩ := hq.popDue now
    cases hp : q.schedule.popDue? now with
    | none =>
      rw [Schedule.answer_popDue_of_none hp]
      rw [hp] at hpopped hschedule
      exact ⟨congrArg TimerReply.popped hpopped, hschedule, hsound⟩
    | some p =>
      rw [Schedule.answer_popDue_of_some hp]
      rw [hp] at hpopped hschedule
      exact ⟨congrArg TimerReply.popped hpopped, hschedule, hsound⟩

theorem Sound.replies (hq : q.Sound) {calls : List (TimerCall α)}
    (hcalls : ∀ call ∈ calls, call.Timely) :
    TimerCall.replies TimerQueue.answer q calls =
        TimerCall.replies Schedule.answer q.schedule calls ∧
      (TimerCall.after TimerQueue.answer q calls).schedule =
        TimerCall.after Schedule.answer q.schedule calls ∧
      (TimerCall.after TimerQueue.answer q calls).Sound := by
  induction calls generalizing q with
  | nil => exact ⟨rfl, rfl, hq⟩
  | cons call calls ih =>
    obtain ⟨hreply, hschedule, hsound⟩ := hq.answer (hcalls call (by simp))
    obtain ⟨hreplies, hafter, hend⟩ := ih hsound fun c hc => hcalls c (by simp [hc])
    rw [hschedule] at hreplies hafter
    refine ⟨?_, hafter, hend⟩
    rw [TimerCall.replies, TimerCall.replies, hreply, hreplies]

structure Gone (q : TimerQueue α) (h : Handle) : Prop where
  issued : h < q.nextHandle
  absent : q.timers.get? h = none

theorem Gone.arm {h k : Handle} (hg : q.Gone h) (hne : h ≠ k) (due : Instant)
    (period : Option Period) (payload : α) : (q.arm k due period payload).Gone h := by
  refine ⟨hg.issued, ?_⟩
  simp [TimerQueue.arm, SortedMap.get?_insert, hne, hg.absent]

theorem Gone.register {h : Handle} (hg : q.Gone h) (due : Instant) (period : Option Period)
    (payload : α) : (q.register due period payload).2.Gone h := by
  have harm := hg.arm hg.issued.ne due period payload
  exact ⟨Nat.lt_succ_of_lt hg.issued, harm.absent⟩

theorem Gone.erase {h : Handle} (hg : q.Gone h) (k : Handle) :
    ({ q with timers := q.timers.erase k } : TimerQueue α).Gone h := by
  refine ⟨hg.issued, ?_⟩
  simp [SortedMap.get?_erase, hg.absent]

theorem Gone.popDue {h : Handle} (hg : q.Gone h) (now : Instant) :
    (q.popDue now).2.Gone h ∧ ∀ payload, (q.popDue now).1 ≠ some (h, payload) := by
  have hstale : q.dropStale.Gone h := ⟨hg.issued, hg.absent⟩
  unfold TimerQueue.popDue
  cases hslots : q.dropStale.slots with
  | nil => simp [hslots, hstale]
  | cons slot rest =>
    have hrest : ({ q.dropStale with slots := rest } : TimerQueue α).Gone h :=
      ⟨hg.issued, hg.absent⟩
    simp only [hslots]
    by_cases hnow : now < slot.due
    · simp [hnow, hstale]
    · cases ht : q.dropStale.timers.get? slot.handle with
      | none => simp [hnow, hrest]
      | some t =>
        have hne : h ≠ slot.handle := by
          rintro rfl
          have habsent := hstale.absent
          simp [ht] at habsent
        simp only [hnow, if_false]
        refine ⟨?_, by simp [hne.symm]⟩
        unfold goOn
        split
        · exact hrest.arm hne _ _ _
        · exact hrest.erase _

theorem Gone.answer {h : Handle} (hg : q.Gone h) (call : TimerCall α) :
    (q.answer call).2.Gone h ∧ ∀ payload, (q.answer call).1 ≠ .popped (some (h, payload)) := by
  cases call with
  | once due payload => exact ⟨hg.register due none payload, by simp [TimerQueue.answer]⟩
  | every due interval payload => exact ⟨hg.register due _ payload, by simp [TimerQueue.answer]⟩
  | cancel k =>
    refine ⟨?_, by simp [TimerQueue.answer]⟩
    simp only [TimerQueue.answer, cancel]
    split
    · exact hg.erase k
    · exact hg
  | isPending k => exact ⟨hg, by simp [TimerQueue.answer]⟩
  | size => exact ⟨hg, by simp [TimerQueue.answer]⟩
  | nextDeadline => exact ⟨⟨hg.issued, hg.absent⟩, by simp [TimerQueue.answer]⟩
  | popDue now =>
    obtain ⟨hgone, hne⟩ := hg.popDue now
    refine ⟨hgone, fun payload hpop => hne payload ?_⟩
    simpa [TimerQueue.answer] using hpop

theorem Gone.not_popped {h : Handle} (hg : q.Gone h) (payload : α) (calls : List (TimerCall α)) :
    .popped (some (h, payload)) ∉ TimerCall.replies TimerQueue.answer q calls := by
  induction calls generalizing q with
  | nil => simp [TimerCall.replies]
  | cons call calls ih =>
    obtain ⟨hgone, hne⟩ := hg.answer call
    simp only [TimerCall.replies, List.mem_cons, not_or]
    exact ⟨(hne payload).symm, ih hgone⟩

structure AsBooked (q : TimerQueue α) (calls : List (TimerCall α)) : Prop where
  turns : ∀ h r, q.schedule.job? h = some r → r.turn < q.nextTurn
  waits : ∀ now, (q.popDue now).1 = none ↔ ∀ h r, q.schedule.job? h = some r → now < r.due
  pops : ∀ now h payload, (q.popDue now).1 = some (h, payload) →
    ∃ r b, q.schedule.job? h = some r ∧ r.payload = payload ∧ r.due ≤ now ∧
      (∀ k u, k ≠ h → q.schedule.job? k = some u → r.before u) ∧
      (∀ k, k ≠ h → (q.popDue now).2.schedule.job? k = q.schedule.job? k) ∧
      TimerCall.bookingOf? calls h = some b ∧ b.Fits r ∧
      b.Leaves r q.nextTurn now ((q.popDue now).2.schedule.job? h)
  cancels : ∀ h, (q.cancel h).1 = q.isPending h
  keeps : ∀ h, q.isPending h = false → (q.cancel h).2 = q
  silences : ∀ h, q.isPending h = true → ∀ payload later,
    .popped (some (h, payload)) ∉ TimerCall.replies TimerQueue.answer (q.cancel h).2 later

theorem Sound.asBooked {calls : List (TimerCall α)} (hq : q.Sound) (hs : q.schedule.Books calls) :
    q.AsBooked calls := by
  have hjob {h : Handle} {r : Registration α} (hr : q.schedule.job? h = some r) :
      ∃ t, q.timers.get? h = some t ∧ t.registration = r :=
    Option.map_eq_some_iff.mp ((job?_schedule q h).symm.trans hr)
  constructor
  · intro h r hr
    obtain ⟨t, ht, rfl⟩ := hjob hr
    exact hq.fresh _ (hq.queued h t ht)
  · intro now
    rw [(hq.popDue now).1, Option.map_eq_none_iff, Schedule.popDue?_eq_none_iff]
  · intro now h payload hpop
    obtain ⟨hpopped, hschedule, -⟩ := hq.popDue now
    rw [hpop] at hpopped
    obtain ⟨⟨h', payload', s⟩, hp, heq⟩ := Option.map_eq_some_iff.mp hpopped.symm
    obtain ⟨rfl, rfl⟩ := Prod.mk.inj heq
    obtain ⟨r, hr, hpayload, hdue, rfl⟩ := Schedule.popDue?_eq_some hp
    obtain ⟨t, ht, rfl⟩ := hjob hr
    obtain ⟨b, hb, hfits⟩ := hs.booked _ _ hr
    rw [hp] at hschedule
    have hafter (k : Handle) := Schedule.job?_rearm q.schedule h' t.registration now k
    have hleft : (q.popDue now).2.schedule =
        q.schedule.rearm h' t.registration now := hschedule
    refine ⟨_, b, hr, hpayload, hdue, fun k u hk hu => ?_, fun k hk => ?_, hb, hfits, ?_⟩
    · obtain ⟨t', ht', rfl⟩ := hjob hu
      have hle := Schedule.rank_le_of_popDue? hp hr hu
      -- Registrations of one rank have one turn, and no two slots share a turn.
      refine Schedule.before_iff.mpr (lt_of_le_of_ne hle fun heq => hk ?_)
      have hturn : t.turn = t'.turn := congrArg (fun r => (ofLex r).2) heq
      have hslot := hq.single _ (hq.queued _ _ ht) _ (hq.queued _ _ ht') hturn
      exact (congrArg Slot.handle hslot).symm
    · rw [hleft, hafter, if_neg hk]
    · rw [hleft, hafter, if_pos rfl]
      exact hfits.leaves (hq.started _ t ht) hdue q.nextTurn
  · exact cancel_fst q
  · intro h hp
    rw [cancel_of_not_pending hp]
  · intro h hp payload later
    have hgone : (q.cancel h).2.Gone h := by
      obtain ⟨r, hr⟩ := Option.isSome_iff_exists.mp
        ((Schedule.isPending_eq _ h).symm.trans ((isPending_schedule q h).trans hp))
      obtain ⟨b, hb, -⟩ := hs.booked h r hr
      rw [cancel_of_pending hp]
      refine ⟨?_, by simp [SortedMap.get?_erase]⟩
      exact (TimerCall.lt_of_bookingOf? hb).trans_eq hs.issued.symm
    exact hgone.not_popped payload later

/-- Whatever calls are made, the queue answers them as the schedule does, and goes on as booked. -/
theorem answers_as_schedule (calls : List (TimerCall α)) (hcalls : ∀ call ∈ calls, call.Timely) :
    TimerCall.replies answer empty calls = TimerCall.replies Schedule.answer .empty calls ∧
      (TimerCall.after answer empty calls).schedule =
        TimerCall.after Schedule.answer .empty calls ∧
      (TimerCall.after answer empty calls).AsBooked calls := by
  obtain ⟨hreplies, hafter, hsound⟩ := sound_empty.replies hcalls
  refine ⟨hreplies, hafter, hsound.asBooked ?_⟩
  rw [hafter]
  exact Schedule.books_after calls

def dripping : List (TimerCall String) :=
  [.every 0 10 "drip", .once 35 "bell", .once 20 "doomed", .cancel 3, .cancel 3, .popDue 35,
    .nextDeadline, .popDue 35, .popDue 35, .size, .isPending 1, .nextDeadline]

theorem answers_as_schedule_dripping :
    (∀ call ∈ dripping, call.Timely) ∧
      TimerCall.replies answer empty dripping =
        [.handle 1, .handle 2, .handle 3, .flag true, .flag false, .popped (some (1, "drip")),
          .deadline (some 35), .popped (some (2, "bell")), .popped none, .count 1, .flag true,
          .deadline (some 40)] ∧
      (TimerCall.after answer empty dripping).AsBooked dripping := by
  have htimely : ∀ call ∈ dripping, call.Timely := by decide
  obtain ⟨hreplies, -, hbooked⟩ := answers_as_schedule dripping htimely
  exact ⟨htimely, hreplies.trans (by decide), hbooked⟩

end TimerQueue

end WorldTriggers
