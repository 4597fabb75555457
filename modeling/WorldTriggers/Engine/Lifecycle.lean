import WorldTriggers.Engine.Advance

namespace WorldTriggers

structure LoadReport where
  scope : Scope
  loaded : Nat
  rejected : List Diagnostic
  unknownConditions : List String
  unknownActions : List String
  restored : Nat

namespace Engine

def applyRecord (e : Engine) (r : Record) : Bool × Engine :=
  match e.catalog.rule? r.ref with
  | none => (false, e)
  | some rule =>
    if rule.permanent then
      let e := { e with states := e.states.update r.ref (·.restore r) }
      if (e.states.stateOf r.ref).isExhausted rule.fireLimit? then (true, e.disarmTimer r.ref)
      else (true, e)
    else (false, e)

def applyRecords (e : Engine) : List Record → Nat × Engine
  | [] => (0, e)
  | r :: rest =>
    let (applied, e) := e.applyRecord r
    let (n, e) := e.applyRecords rest
    ((if applied then 1 else 0) + n, e)

def restoreOne (e : Engine) (r : Record) : Bool × Engine :=
  if e.catalog.contains r.scope then e.applyRecord r
  else (false, { e with waiting := e.waiting.insert r.ref r })

def restore (e : Engine) : List Record → Nat × Engine
  | [] => (0, e)
  | r :: rest =>
    let (applied, e) := e.restoreOne r
    let (n, e) := e.restore rest
    ((if applied then 1 else 0) + n, e)

def detach (e : Engine) (scope : Scope) : Engine :=
  let timers := (e.states.ofScope scope).values.filterMap (·.timer)
  let e := e.cancelDeferred (·.scope == scope)
  { e with
    catalog := e.catalog.remove scope
    states := e.states.withoutScope scope
    schedule := e.schedule.cancelWhere timers.contains }

def hasPermanent (rules : List Rule) (id : RuleId) : Bool :=
  rules.any fun r => r.id == id && r.permanent

def carriedStates (e : Engine) (scope : Scope) (rules : List Rule) : List (RuleRef × RuleState) :=
  ((e.states.ofScope scope).entries.filter fun (ref, _) =>
    (e.catalog.rule? ref).any (·.permanent) && hasPermanent rules ref.rule).map
      fun (ref, s) => (ref, s.carried)

def armTimers (e : Engine) (scope : Scope) (epoch : Nat) (now : Instant) : Engine :=
  (e.catalog.candidates scope .timer).foldl (fun e l => e.armTimer scope epoch l.rule now) e

def install (e : Engine) (c : Content) (carried : List (RuleRef × RuleState)) (now : Instant) :
    LoadReport × Engine :=
  let unknownConditions :=
    (c.rules.flatMap fun r => e.settings.conditions.unknownKinds r.conditions).eraseDups
  let unknownActions :=
    (c.rules.flatMap fun r => e.settings.actions.unknownKinds r.actions).eraseDups
  let (epoch, _, catalog) := e.catalog.insert c.scope c.rules
  let states := carried.foldl (fun states (ref, s) => states.insert ref s) e.states
  let pending := (e.waiting.filter fun ref _ => ref.scope = c.scope).values
  let waiting := e.waiting.filter fun ref _ => ref.scope ≠ c.scope
  let (applied, e) := { e with catalog, states, waiting }.applyRecords pending
  let e := e.armTimers c.scope epoch now
  ({
    scope := c.scope
    loaded := c.rules.length
    rejected := c.rejected
    unknownConditions
    unknownActions
    restored := carried.length + applied }, e)

def reload (e : Engine) (c : Content) (now : Instant) : LoadReport × Engine :=
  let carried := e.carriedStates c.scope c.rules
  (e.detach c.scope).install c carried now

def load (e : Engine) (c : Content) (now : Instant) : LoadReport × Engine :=
  if e.catalog.contains c.scope then e.reload c now else e.install c [] now

def unload (e : Engine) (scope : Scope) : Bool × Engine :=
  if e.catalog.contains scope then (true, e.detach scope) else (false, e)

def exported (e : Engine) : List Record :=
  (e.catalog.scopes.entries.flatMap fun (scope, i) =>
    (i.rules.filter (·.rule.permanent)).map fun l => e.states.snapshot ⟨scope, l.rule.id⟩) ++
  e.waiting.values

end Engine

end WorldTriggers
