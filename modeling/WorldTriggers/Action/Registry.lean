import WorldTriggers.Condition.Builtin
import WorldTriggers.Event
import WorldTriggers.Template

/-!
Running actions. An action changes the world and reports notices; what concerns rules and the
scheduler it leaves to its caller as follow-ups. An action that fails changes nothing.
-/

namespace WorldTriggers

inductive ActionError where
  | param (error : ParamError)
  | flag (error : ConditionError)
  | unknownDirection (text : String)
  | endlessDuration (seconds : Float)
  | negativeAmount (amount : Int)
  | noActor
  | noRoom
  | noArea
  | world (error : WorldError)
  deriving Repr

def ActionError.message : ActionError → String
  | param e => e.message
  | flag e => ConditionError.invalidParam "flag" e.message
  | unknownDirection text =>
    ConditionError.invalidParam "direction" ("unknown direction `" ++ text ++ "`")
  | endlessDuration x =>
    ConditionError.invalidParam "duration"
      (Decimal.plain x ++ " is not a representable number of seconds")
  | negativeAmount n => ConditionError.invalidParam "amount" (toString n ++ " is negative")
  | noActor => "action requires an actor"
  | noRoom => "action requires a room"
  | noArea => "action requires an area"
  | world e => e.message

instance : MonadLift (Except ParamError) (Except ActionError) where
  monadLift x := x.mapError ActionError.param

instance : MonadLift (Except WorldError) (Except ActionError) where
  monadLift x := x.mapError ActionError.world

structure StatChange where
  stat : String
  amount : Int
  deriving DecidableEq, Repr

def StatChange.reversal (s : StatChange) : Int := min (-s.amount) (Width.maxInt 64)

inductive Followup where
  | setEnabled (target : RuleRef) (enabled : Bool)
  | fireRule (target : RuleRef)
  | expireEffect (actor : ActorId) (effect : String) (stat : Option StatChange) (after : Span)
  deriving DecidableEq, Repr

structure Outcome where
  notices : List Notice := []
  cancelRest : Bool := false
  followups : List Followup := []
  deriving DecidableEq, Repr

structure ActionEnv where
  world : World
  context : Context
  scope : Scope

abbrev ActionHandler := Params → ActionEnv → Except ActionError (Outcome × World)

namespace ActionEnv

def actor (env : ActionEnv) : Except ActionError ActorId :=
  match env.context.actor with
  | some a => .ok a
  | none => .error .noActor

def scopeRoom? (env : ActionEnv) : Option RoomId :=
  match env.scope with
  | .room r => some r
  | .area _ => none

def scopeArea? (env : ActionEnv) : Option AreaId :=
  match env.scope with
  | .area a => some a
  | .room _ => none

def ownRoom? (env : ActionEnv) : Option RoomId :=
  env.context.room <|> env.scopeRoom? <|> env.context.actor.bind env.world.actorRoom?

def ownRoom (env : ActionEnv) : Except ActionError RoomId :=
  match env.ownRoom? with
  | some r => .ok r
  | none => .error .noRoom

def room (env : ActionEnv) (p : Params) : Except ActionError RoomId := do
  match ← p.string? "room" with
  | some r => pure r
  | none => env.ownRoom

def area (env : ActionEnv) (p : Params) : Except ActionError AreaId := do
  match ← p.string? "area" with
  | some a => pure a
  | none =>
    match env.context.area <|> env.scopeArea? with
    | some a => pure a
    | none =>
      match env.room p with
      | .error _ => throw .noArea
      | .ok r =>
        match env.world.roomArea? r with
        | some a => pure a
        | none => throw .noArea

def targetScope (env : ActionEnv) (p : Params) : Except ActionError Scope := do
  match ← p.string? "room" with
  | some r => pure (.room r)
  | none =>
    match ← p.string? "area" with
    | some a => pure (.area a)
    | none => pure env.scope

def render (env : ActionEnv) (text : String) : String :=
  Template.render (.ofContext env.context env.world) text

end ActionEnv

structure ActionRegistry where
  handlers : SortedMap String ActionHandler

namespace ActionRegistry

def empty : ActionRegistry := ⟨.empty⟩

def register (reg : ActionRegistry) (kind : String) (handler : ActionHandler) : ActionRegistry :=
  ⟨reg.handlers.insert kind handler⟩

def contains (reg : ActionRegistry) (kind : String) : Bool := reg.handlers.contains kind

def get? (reg : ActionRegistry) (kind : String) : Option ActionHandler := reg.handlers.get? kind

def kinds (reg : ActionRegistry) : List String := reg.handlers.keys

def unknownKinds (reg : ActionRegistry) (actions : List Action) : List String :=
  ((actions.map (·.kind)).filter fun k => !reg.contains k).eraseDups

end ActionRegistry

end WorldTriggers
