import WorldTriggers.Action.Builtin
import WorldTriggers.Catalog
import WorldTriggers.Content.Basic
import WorldTriggers.RuleState

/-!
The engine: installed rules, their states, and the jobs scheduled for later. The engine reads no
clock; whoever calls it says what time it is.
-/

namespace WorldTriggers

inductive EngineError where
  | scopeNotLoaded (scope : Scope)
  | ruleNotFound (rule : RuleRef)
  deriving DecidableEq, Repr

def EngineError.message : EngineError → String
  | scopeNotLoaded scope => "scope " ++ scope.text ++ " is not loaded"
  | ruleNotFound ref => "rule `" ++ ref.rule ++ "` not found in " ++ ref.scope.text

structure Settings where
  conditions : ConditionRegistry
  actions : ActionRegistry
  maxDepth : Nat
  roll : Draws

namespace Settings

def builtin (maxDepth : Nat) (roll : Draws := 50) : Settings := ⟨.builtin, .builtin, maxDepth, roll⟩

end Settings

structure Firing where
  scope : Scope
  epoch : Nat
  rule : Rule
  context : Context

def Firing.ref (f : Firing) : RuleRef := ⟨f.scope, f.rule.id⟩

structure Continuation where
  firing : Firing
  next : Nat

inductive Job where
  | ruleTimer (rule : RuleRef) (epoch : Nat)
  | continuation (rest : Continuation)
  | expireEffect (actor : ActorId) (effect : String) (stat : Option StatChange)

structure Engine where
  settings : Settings
  catalog : Catalog := {}
  states : RuleStates := .empty
  schedule : Schedule Job := .empty
  deferred : SortedMap Handle RuleRef := .empty
  /-- Restored records of scopes that are not loaded yet. -/
  waiting : SortedMap RuleRef Record := .empty

namespace Engine

def ofSettings (settings : Settings) : Engine := { settings }

def isEnabled? (e : Engine) (ref : RuleRef) : Option Bool :=
  (e.catalog.rule? ref).map fun r => (e.states.stateOf ref).isEnabled r.enabled

def nextDeadline? (e : Engine) : Option Instant := e.schedule.nextDeadline?

def pendingJobs (e : Engine) : Nat := e.schedule.size

def target? (e : Engine) (ref : RuleRef) : Option (Nat × Rule) :=
  match e.catalog.get? ref.scope with
  | none => none
  | some i => (i.find? ref.rule).map fun l => (i.epoch, l.rule)

def target (e : Engine) (ref : RuleRef) : Except EngineError (Nat × Rule) :=
  if e.catalog.contains ref.scope then
    match e.target? ref with
    | some t => .ok t
    | none => .error (.ruleNotFound ref)
  else .error (.scopeNotLoaded ref.scope)

end Engine

end WorldTriggers
