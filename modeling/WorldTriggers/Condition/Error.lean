import WorldTriggers.Identifier
import WorldTriggers.Json.Decode
import WorldTriggers.Params

namespace WorldTriggers

inductive ConditionError where
  | param (error : ParamError)
  | unknownComparison (text : String)
  | hoursOutOfRange
  | flagForm
  | unknownDirection (text : String)
  | noActor
  | noRoom
  | unknownActor (actor : ActorId)
  | nested (error : DecodeError)
  deriving Repr

namespace ConditionError

def invalidParam (key reason : String) : String := "invalid parameter `" ++ key ++ "`: " ++ reason

def message : ConditionError → String
  | param e => e.message
  | unknownComparison text => invalidParam "op" ("unknown comparison `" ++ text ++ "`")
  | hoursOutOfRange => invalidParam "from" "hours must be within 0..=24"
  | flagForm =>
    invalidParam "flag" "expected `flag`/`value` or a single `<flag>: <value>` pair"
  | unknownDirection text => invalidParam "direction" ("unknown direction `" ++ text ++ "`")
  | noActor => "condition requires an actor"
  | noRoom => "condition requires a room"
  | unknownActor actor => "actor " ++ actor ++ " not found"
  | nested e => "malformed nested conditions: " ++ e.message

end ConditionError

instance : MonadLift (Except ParamError) (Except ConditionError) where
  monadLift x := x.mapError ConditionError.param

end WorldTriggers
