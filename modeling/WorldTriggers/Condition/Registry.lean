import WorldTriggers.Condition.Guard
import WorldTriggers.Context
import WorldTriggers.Time.Timestamp
import WorldTriggers.World.Basic

/-!
Deciding conditions. A registry maps the kinds of conditions to handlers. A kind without a handler and
a handler that fails both count as false, before any negation, so that a guarded rule does not fire
because something is missing; each such case is noted as a complaint.
-/

namespace WorldTriggers

/-- The numbers, from 0 up to 100, that chances are measured against: any number for each test of a rule. -/
structure Draws where
  draw : World → Context → RuleId → Instant → Params → Float

instance (n : Nat) : OfNat Draws n where
  ofNat := ⟨fun _ _ _ _ _ => Float.ofNat n⟩

structure ConditionEnv where
  world : World
  context : Context
  rule : RuleId := ""
  now : Instant
  lastFired : Option Timestamp
  roll : Draws

namespace ConditionEnv

def actor (env : ConditionEnv) : Except ConditionError ActorId :=
  match env.context.actor with
  | some a => .ok a
  | none => .error .noActor

def contextRoom? (env : ConditionEnv) : Option RoomId :=
  env.context.room <|> env.context.actor.bind env.world.actorRoom?

def room (env : ConditionEnv) (p : Params) : Except ConditionError RoomId := do
  match ← p.string? "room" with
  | some r => pure r
  | none =>
    match env.contextRoom? with
    | some r => pure r
    | none => throw .noRoom

end ConditionEnv

inductive Combination where
  | all
  | any
  | not
  deriving DecidableEq, Repr

/-- What a handler does that has members of its condition evaluated. It comes to a result, or it first has
a member evaluated, in whatever surroundings, and goes on with the value. -/
inductive Inquiry (members : Nat) where
  | decided (result : Except ConditionError Bool)
  | ask (member : Fin members) (env : ConditionEnv) (next : Bool → Inquiry members)

/-- A handler may leave the members of its condition alone, combine them as the built-in combinations do,
or have them evaluated as it likes. -/
inductive ConditionHandler where
  | test (decide : Params → ConditionEnv → Except ConditionError Bool)
  | combine (how : Combination)
  | inquire (start : Params → ConditionEnv → (members : Nat) → Inquiry members)

structure Complaint where
  kind : String
  error : Option ConditionError
  deriving Repr

abbrev Verdict := Bool × List Complaint

def Inquiry.answer {n : Nat} (evaluate : Fin n → ConditionEnv → Verdict) :
    Inquiry n → Except ConditionError Bool × List Complaint
  | decided result => (result, [])
  | ask member env next =>
    let (b, log) := evaluate member env
    let (result, more) := (next b).answer evaluate
    (result, log ++ more)

structure ConditionRegistry where
  handlers : SortedMap String ConditionHandler

namespace ConditionRegistry

def empty : ConditionRegistry := ⟨.empty⟩

def register (reg : ConditionRegistry) (kind : String) (handler : ConditionHandler) :
    ConditionRegistry :=
  ⟨reg.handlers.insert kind handler⟩

def contains (reg : ConditionRegistry) (kind : String) : Bool := reg.handlers.contains kind

def kinds (reg : ConditionRegistry) : List String := reg.handlers.keys

def conclude (c : Condition) : Except ConditionError Bool → Verdict
  | .ok b => (b != c.negate, [])
  | .error e => (false, [⟨c.kind, some e⟩])

mutual

def evaluate (reg : ConditionRegistry) (env : ConditionEnv) : Guard → Verdict
  | .group c members =>
    match reg.handlers.get? c.kind with
    | none => (false, [⟨c.kind, none⟩])
    | some (.test decide) => conclude c (decide c.params env)
    | some (.combine .all) =>
      let (b, log) := evaluateAll reg env members
      (b != c.negate, log)
    | some (.combine .any) =>
      let (b, log) := evaluateAny reg env members
      (b != c.negate, log)
    | some (.combine .not) =>
      let (b, log) := evaluateAll reg env members
      (!b != c.negate, log)
    | some (.inquire start) =>
      let (result, log) := (start c.params env members.length).answer (evaluateMember reg members)
      let (b, own) := conclude c result
      (b, log ++ own)
  | .single c why =>
    match reg.handlers.get? c.kind with
    | none => (false, [⟨c.kind, none⟩])
    | some (.test decide) => conclude c (decide c.params env)
    | some (.combine _) => conclude c (.error why)
    | some (.inquire start) => conclude c ((start c.params env 0).answer fun i _ => i.elim0).1

def evaluateAll (reg : ConditionRegistry) (env : ConditionEnv) : List Guard → Verdict
  | [] => (true, [])
  | g :: rest =>
    match evaluate reg env g with
    | (true, log) => let (b, more) := evaluateAll reg env rest; (b, log ++ more)
    | (false, log) => (false, log)

def evaluateAny (reg : ConditionRegistry) (env : ConditionEnv) : List Guard → Verdict
  | [] => (false, [])
  | g :: rest =>
    match evaluate reg env g with
    | (true, log) => (true, log)
    | (false, log) => let (b, more) := evaluateAny reg env rest; (b, log ++ more)

def evaluateMember (reg : ConditionRegistry) : (members : List Guard) → Fin members.length →
    ConditionEnv → Verdict
  | g :: _, ⟨0, _⟩, env => evaluate reg env g
  | _ :: rest, ⟨i + 1, h⟩, env => evaluateMember reg rest ⟨i, Nat.lt_of_succ_lt_succ h⟩ env

end

def allHold (reg : ConditionRegistry) (env : ConditionEnv) (cs : List Condition) : Bool :=
  (evaluateAll reg env (cs.map Guard.ofCondition)).1

def noteUnknown (reg : ConditionRegistry) (kind : String) (found : List String) : List String :=
  if reg.contains kind || found.contains kind then found else found ++ [kind]

mutual

def collectUnknown (reg : ConditionRegistry) : Guard → List String → List String
  | .group c members, found =>
    let found := reg.noteUnknown c.kind found
    if compositeKinds.contains c.kind then reg.collectUnknownOf members found else found
  | .single c _, found => reg.noteUnknown c.kind found

def collectUnknownOf (reg : ConditionRegistry) : List Guard → List String → List String
  | [], found => found
  | g :: rest, found => reg.collectUnknownOf rest (reg.collectUnknown g found)

end

def unknownKinds (reg : ConditionRegistry) (cs : List Condition) : List String :=
  reg.collectUnknownOf (cs.map Guard.ofCondition) []

end ConditionRegistry

end WorldTriggers
