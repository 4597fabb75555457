import WorldTriggers.Json.Decode

namespace WorldTriggers

inductive EventKind where
  | enter
  | exit
  | command
  | timer
  | areaEnter
  | areaExit
  deriving DecidableEq, Repr

namespace EventKind

def all : List EventKind := [enter, exit, command, timer, areaEnter, areaExit]

def name : EventKind → String
  | enter => "on_enter"
  | exit => "on_exit"
  | command => "on_command"
  | timer => "on_timer"
  | areaEnter => "on_area_enter"
  | areaExit => "on_area_exit"

def isActorScoped (e : EventKind) : Bool := e != timer

def ofName? (s : String) : Option EventKind := all.find? (·.name == s)

def unknownText (s : String) : String := "unknown trigger event `" ++ s ++ "`"

def named : List (String × EventKind) := all.map fun e => (e.name, e)

def decode (v : Json) : Decoded EventKind := Json.asVariant false named v

def toJson (e : EventKind) : Json := .string e.name

end EventKind

end WorldTriggers
