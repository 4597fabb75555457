import WorldTriggers.Record
import WorldTriggers.Schedule

/-!
The state of a rule while the program runs: how often and when it fired, its timer, and whether it was
switched on or off.
-/

namespace WorldTriggers

inductive CooldownKey where
  | rule
  | actor (actor : ActorId)
  deriving DecidableEq, Repr

namespace CooldownKey

def rank : CooldownKey → Nat
  | rule => 0
  | actor _ => 1

def name : CooldownKey → String
  | rule => ""
  | actor a => a

instance : Ord CooldownKey := ⟨compareLex (compareOn rank) (compareOn name)⟩

instance : Std.TransOrd CooldownKey :=
  inferInstanceAs (Std.TransCmp (compareLex (compareOn rank) (compareOn name)))

instance : Std.LawfulEqOrd CooldownKey where
  compare_self := compareLex_eq_eq.mpr ⟨Std.ReflOrd.compare_self, Std.ReflOrd.compare_self⟩
  eq_of_compare {a b} h := by
    obtain ⟨hr, hn⟩ := compareLex_eq_eq.mp h
    have hr := Std.LawfulEqCmp.eq_of_compare (show compare a.rank b.rank = .eq from hr)
    have hn := Std.LawfulEqCmp.eq_of_compare (show compare a.name b.name = .eq from hn)
    cases a <;> cases b <;> simp_all [rank, name]

end CooldownKey

structure RuleState where
  fireCount : Nat := 0
  lastFired : SortedMap CooldownKey Timestamp := .empty
  lastFiredAny : Option Timestamp := none
  /-- A firing from before the program started, for whatever key. -/
  restoredFloor : Option Timestamp := none
  timer : Option Handle := none
  enabledOverride : Option Bool := none

namespace RuleState

def isEnabled (s : RuleState) (authored : Bool) : Bool := s.enabledOverride.getD authored

def lastCounted (s : RuleState) (key : CooldownKey) : Option Timestamp :=
  match s.lastFired.get? key, s.restoredFloor with
  | some a, some b => some (a.latest b)
  | some a, none => some a
  | none, b => b

def isCoolingDown (s : RuleState) (key : CooldownKey) (cooldown : Span) (now : Instant) : Bool :=
  match s.lastCounted key with
  | some t => t.elapsed now < cooldown
  | none => false

def isExhausted (s : RuleState) (limit : Option Nat) : Bool :=
  match limit with
  | some n => n ≤ s.fireCount
  | none => false

def recordFiring (s : RuleState) (key : CooldownKey) (now : Instant) : RuleState :=
  { s with
    fireCount := min (s.fireCount + 1) Record.maxCount
    lastFired := s.lastFired.insert key (.ofInstant now)
    lastFiredAny := some (.ofInstant now) }

def restore (s : RuleState) (r : Record) : RuleState :=
  { s with
    fireCount := r.fireCount
    lastFiredAny := r.lastFired
    restoredFloor := r.lastFired }

/-- The part of a state that a reload of a permanent rule keeps. -/
def carried (s : RuleState) : RuleState := { s with timer := none, enabledOverride := none }

end RuleState

abbrev RuleStates := SortedMap RuleRef RuleState

namespace RuleStates

def stateOf (s : RuleStates) (ref : RuleRef) : RuleState := (s.get? ref).getD {}

def update (s : RuleStates) (ref : RuleRef) (f : RuleState → RuleState) : RuleStates :=
  s.insert ref (f (s.stateOf ref))

def ofScope (s : RuleStates) (scope : Scope) : RuleStates := s.filter fun ref _ => ref.scope = scope

def withoutScope (s : RuleStates) (scope : Scope) : RuleStates :=
  s.filter fun ref _ => ref.scope ≠ scope

def snapshot (s : RuleStates) (ref : RuleRef) : Record :=
  let state := s.stateOf ref
  ⟨ref.rule, ref.scope, state.fireCount, state.lastFiredAny⟩

end RuleStates

end WorldTriggers
