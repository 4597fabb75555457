import WorldTriggers.Schedule

/-!
Timers kept in a queue, so that the one that comes up is found at its front. Every timer has a slot in
the queue. When it is cancelled, or comes up and goes on, its old slot stays behind; the turn tells such
a slot from the present one, and it is dropped once it reaches the front.
-/

namespace WorldTriggers

abbrev Period := { d : Span // 0 < d }

def Period.ofSpan? (d : Span) : Option Period := if h : 0 < d then some ⟨d, h⟩ else none

structure Timer (α : Type) where
  due : Instant
  turn : Nat
  period : Option Period
  payload : α

structure Slot where
  due : Instant
  turn : Nat
  handle : Handle
  deriving DecidableEq, Repr

def Slot.before (a b : Slot) : Bool :=
  a.due < b.due || (a.due == b.due && (a.turn < b.turn || (a.turn == b.turn && a.handle < b.handle)))

def Timer.slot (t : Timer α) (h : Handle) : Slot := ⟨t.due, t.turn, h⟩

theorem toNat_after_step_lt {now due step : Int} (hstep : 0 < step) (hdue : due ≤ now) :
    (now + 1 - (due + step)).toNat < (now + 1 - due).toNat := by
  omega

/-- The first time after `now` that is reached from a due time in steps of a period, unless a step
leads beyond all time. -/
def catchUp (period : Period) (now due : Instant) : Option Instant :=
  if _hdue : due ≤ now then
    match _h : due.after? period.1 with
    | none => none
    | some next => catchUp period now next
  else some due
termination_by (now + 1 - due).toNat
decreasing_by
  obtain ⟨rfl, -, -⟩ := Instant.after?_eq_some_iff.mp _h
  exact toNat_after_step_lt period.2 _hdue

structure TimerQueue (α : Type) where
  slots : List Slot
  timers : SortedMap Handle (Timer α)
  nextHandle : Handle
  nextTurn : Nat

namespace TimerQueue

def empty : TimerQueue α := ⟨[], .empty, 1, 0⟩

def push (slot : Slot) : List Slot → List Slot
  | [] => [slot]
  | first :: rest =>
    if slot.before first then slot :: first :: rest else first :: push slot rest

def arm (q : TimerQueue α) (h : Handle) (due : Instant) (period : Option Period) (payload : α) :
    TimerQueue α := {
  q with
  slots := push ⟨due, q.nextTurn, h⟩ q.slots
  timers := q.timers.insert h ⟨due, q.nextTurn, period, payload⟩
  nextTurn := q.nextTurn + 1 }

def register (q : TimerQueue α) (due : Instant) (period : Option Period) (payload : α) :
    Handle × TimerQueue α :=
  (q.nextHandle, { q.arm q.nextHandle due period payload with nextHandle := q.nextHandle + 1 })

def once (q : TimerQueue α) (due : Instant) (payload : α) : Handle × TimerQueue α :=
  q.register due none payload

def every (q : TimerQueue α) (due : Instant) (interval : Span) (payload : α) :
    Handle × TimerQueue α :=
  q.register due (Period.ofSpan? interval) payload

def isPending (q : TimerQueue α) (h : Handle) : Bool := q.timers.contains h

def cancel (q : TimerQueue α) (h : Handle) : Bool × TimerQueue α :=
  if q.isPending h then (true, { q with timers := q.timers.erase h }) else (false, q)

def size (q : TimerQueue α) : Nat := q.timers.size

def isEmpty (q : TimerQueue α) : Bool := q.timers.isEmpty

def isLive (q : TimerQueue α) (slot : Slot) : Bool :=
  (q.timers.get? slot.handle).any (·.turn == slot.turn)

def dropStale (q : TimerQueue α) : TimerQueue α :=
  { q with slots := q.slots.dropWhile fun slot => !q.isLive slot }

def nextDeadline (q : TimerQueue α) : Option Instant × TimerQueue α :=
  let q := q.dropStale
  (q.slots.head?.map (·.due), q)

def goOn (q : TimerQueue α) (slot : Slot) (t : Timer α) (now : Instant) : TimerQueue α :=
  match t.period.bind fun period => catchUp period now slot.due with
  | some due => q.arm slot.handle due t.period t.payload
  | none => { q with timers := q.timers.erase slot.handle }

def popDue (q : TimerQueue α) (now : Instant) : Option (Handle × α) × TimerQueue α :=
  let q := q.dropStale
  match q.slots with
  | [] => (none, q)
  | slot :: rest =>
    if now < slot.due then (none, q)
    else
      let q := { q with slots := rest }
      match q.timers.get? slot.handle with
      | none => (none, q)
      | some t => (some (slot.handle, t.payload), q.goOn slot t now)

def popAllDue (q : TimerQueue α) (now : Instant) : (limit : Nat) → List α × TimerQueue α
  | 0 => ([], q)
  | limit + 1 =>
    match q.popDue now with
    | (none, q) => ([], q)
    | (some (_, payload), q) =>
      let (rest, q) := q.popAllDue now limit
      (payload :: rest, q)

def drain (q : TimerQueue α) (now : Instant) : List α × TimerQueue α := q.popAllDue now q.size

end TimerQueue

end WorldTriggers
