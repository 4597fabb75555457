import WorldTriggers.SortedMap
import WorldTriggers.Time.Basic

/-!
The schedule of jobs. Every job has a handle, a due time and a turn; jobs come up by due time, and in
the order of their turns when due together. A recurring job keeps its handle and takes a new turn each
time it comes up.
-/

namespace WorldTriggers

abbrev Handle := Nat

def Handle.text (h : Handle) : String := "timer#" ++ toString h

structure Registration (α : Type) where
  due : Instant
  turn : Nat
  interval : Option Span
  payload : α

structure Schedule (α : Type) where
  jobs : SortedMap Handle (Registration α)
  nextHandle : Handle
  nextTurn : Nat

namespace Registration

def before (a b : Registration α) : Bool :=
  a.due < b.due || (a.due == b.due && a.turn < b.turn)

/-- The first due time after `now` on the grid of the interval. One catch-up run makes good for any
number of missed ones. -/
def nextDue? (due : Instant) (interval : Span) (now : Instant) : Option Instant :=
  if now < due then some due else due.after? (((now - due) / interval + 1) * interval)

end Registration

namespace Schedule

def empty : Schedule α := ⟨.empty, 1, 0⟩

def register (s : Schedule α) (due : Instant) (interval : Option Span) (payload : α) :
    Handle × Schedule α :=
  (s.nextHandle, {
    jobs := s.jobs.insert s.nextHandle ⟨due, s.nextTurn, interval, payload⟩
    nextHandle := s.nextHandle + 1
    nextTurn := s.nextTurn + 1 })

def once (s : Schedule α) (due : Instant) (payload : α) : Handle × Schedule α :=
  s.register due none payload

def every (s : Schedule α) (due : Instant) (interval : Span) (payload : α) : Handle × Schedule α :=
  s.register due (if 0 < interval then some interval else none) payload

def isPending (s : Schedule α) (h : Handle) : Bool := s.jobs.contains h

def cancel (s : Schedule α) (h : Handle) : Schedule α := { s with jobs := s.jobs.erase h }

def cancelWhere (s : Schedule α) (p : Handle → Bool) : Schedule α :=
  { s with jobs := s.jobs.filter fun h _ => !p h }

def size (s : Schedule α) : Nat := s.jobs.size

def isEmpty (s : Schedule α) : Bool := s.jobs.isEmpty

def firstOf : List (Handle × Registration α) → Option (Handle × Registration α)
  | [] => none
  | e :: rest =>
    match firstOf rest with
    | some f => if f.2.before e.2 then some f else some e
    | none => some e

def first? (s : Schedule α) : Option (Handle × Registration α) := firstOf s.jobs.entries

def nextDeadline? (s : Schedule α) : Option Instant := s.first?.map (·.2.due)

def rearm (s : Schedule α) (h : Handle) (r : Registration α) (now : Instant) : Schedule α :=
  match r.interval.bind fun i => Registration.nextDue? r.due i now with
  | some due => {
      s with
      jobs := s.jobs.insert h { r with due := due, turn := s.nextTurn }
      nextTurn := s.nextTurn + 1 }
  | none => s.cancel h

def popDue? (s : Schedule α) (now : Instant) : Option (Handle × α × Schedule α) :=
  match s.first? with
  | none => none
  | some (h, r) => if r.due ≤ now then some (h, r.payload, s.rearm h r now) else none

def popAllDue (s : Schedule α) (now : Instant) : (limit : Nat) → List α × Schedule α
  | 0 => ([], s)
  | limit + 1 =>
    match s.popDue? now with
    | none => ([], s)
    | some (_, payload, s) =>
      let (rest, s) := s.popAllDue now limit
      (payload :: rest, s)

def drain (s : Schedule α) (now : Instant) : List α × Schedule α := s.popAllDue now s.size

end Schedule

end WorldTriggers
