import WorldTriggers.Condition.Guard
import WorldTriggers.Text.Blank

namespace WorldTriggers

inductive RuleFault where
  | blankId
  | badSeconds (field : String) (seconds : Float)
  | badLimit (maxFires : Int)
  | badDelay (index : Nat) (kind : String) (seconds : Float)
  | noPattern
  | noInterval
  | conditions (error : ConditionError)
  deriving Repr

namespace RuleFault

def secondsText (field : String) (seconds : Float) : String :=
  field ++ " must be a non-negative number of seconds, got " ++ Decimal.plain seconds

def message : RuleFault → String
  | blankId => "id must not be blank"
  | badSeconds field x => secondsText field x
  | badLimit n => "max_fires must be -1 or greater, got " ++ toString n
  | badDelay index kind x =>
    "action " ++ toString index ++ " (`" ++ kind ++ "`): " ++ secondsText "delay" x
  | noPattern => "on_command rules require a command_pattern"
  | noInterval => "on_timer rules require a positive timer_interval"
  | conditions e => e.message

end RuleFault

def isSeconds (x : Float) : Bool := x.isFinite && !(x < 0)

namespace Rule

def checkSeconds (field : String) (x : Float) : Except RuleFault Unit :=
  if isSeconds x then .ok () else .error (.badSeconds field x)

def checkDelays : Nat → List Action → Except RuleFault Unit
  | _, [] => .ok ()
  | i, a :: rest =>
    if isSeconds a.delay then checkDelays (i + 1) rest else .error (.badDelay i a.kind a.delay)

def checkEvent (r : Rule) : Except RuleFault Unit :=
  match r.event with
  | .command => if r.commandPattern.all Text.isBlankText then .error .noPattern else .ok ()
  | .timer => if r.timerPlan?.isNone then .error .noInterval else .ok ()
  | _ => .ok ()

def validate (r : Rule) : Except RuleFault Unit := do
  if Text.isBlankText r.id then throw .blankId
  checkSeconds "cooldown" r.cooldown
  checkSeconds "timer_initial_delay" r.timerInitialDelay
  if r.maxFires < -1 then throw (.badLimit r.maxFires)
  checkDelays 0 r.actions
  r.checkEvent
  (Condition.validate r.conditions).mapError RuleFault.conditions

end Rule

end WorldTriggers
