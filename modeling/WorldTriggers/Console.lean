import WorldTriggers.Event

namespace WorldTriggers

inductive ConsoleCommand where
  | occur (occurrence : Occurrence)
  | setEnabled (rule : RuleRef) (enabled : Bool)
  | fire (rule : RuleRef) (actor : Option ActorId)
  | load (path : String)
  | unload (scope : Scope)
  | save
  | quit
  deriving DecidableEq, Repr

inductive ConsoleVerb where
  | enter
  | exit
  | areaEnter
  | areaExit
  | act
  | enable
  | disable
  | fire
  | load
  | unload
  | save
  | quit
  deriving DecidableEq, Repr

inductive ConsoleError where
  | unknownVerb (verb : String)
  | usage (verb : ConsoleVerb)
  | badScope (text : String)
  | badDirection (text : String)
  deriving DecidableEq, Repr

namespace ConsoleVerb

def spellings : List (String × ConsoleVerb) := [
  ("enter", enter), ("exit", exit), ("area-enter", areaEnter), ("area-exit", areaExit),
  ("do", act), ("cmd", act), ("enable", enable), ("disable", disable), ("fire", fire),
  ("load", load), ("reload", load), ("unload", unload), ("save", save), ("quit", quit),
  ("q", quit)]

def ofText? (s : String) : Option ConsoleVerb := spellings.lookup (Text.lowercase s)

def form : ConsoleVerb → String
  | enter | exit => "enter|exit <actor> <room> [direction]"
  | areaEnter | areaExit => "area-enter|area-exit <actor> <from> <to>"
  | act => "do <actor> <room> <command text>"
  | enable | disable => "enable|disable <scope> <rule>"
  | fire => "fire <scope> <rule> [actor]"
  | load => "load <path>"
  | unload => "unload <scope>"
  | save => "save"
  | quit => "quit"

end ConsoleVerb

namespace ConsoleError

def message : ConsoleError → String
  | unknownVerb verb =>
    "unknown command `" ++ Text.lowercase verb ++ "` (try: enter, exit, area-enter, area-exit, " ++
      "do, enable, disable, fire, load, unload, save, quit)"
  | usage verb => "usage: " ++ verb.form
  | badScope s => Scope.unknownText s
  | badDirection s => Direction.unknownText s

end ConsoleError

namespace ConsoleCommand

def splitBlank : List Char → List Char × Option (List Char)
  | [] => ([], none)
  | c :: rest =>
    if Text.isBlank c then ([], some rest)
    else
      let (word, after) := splitBlank rest
      (c :: word, after)

/-- Actor, room and text of a typed command. One blank stands between two of them: another one there
belongs to what follows. -/
def splitCommand? (rest : List Char) : Option (ActorId × RoomId × String) :=
  match splitBlank rest with
  | (_, none) => none
  | (actor, some rest) =>
    match splitBlank rest with
    | (_, none) => none
    | (room, some text) =>
      some (String.ofList actor, String.ofList room, String.ofList (Text.trimOf text))

def readScope (s : String) : Except ConsoleError Scope :=
  match Scope.ofText? s with
  | some scope => .ok scope
  | none => .error (.badScope s)

def readDirection (s : String) : Except ConsoleError Direction :=
  match Direction.ofText? s with
  | some d => .ok d
  | none => .error (.badDirection s)

def readMove (verb : ConsoleVerb) (args : List String) :
    Except ConsoleError (ActorId × RoomId × Option Direction) :=
  match args with
  | [actor, room] => .ok (actor, room, none)
  | [actor, room, d] => (readDirection d).map fun d => (actor, room, some d)
  | _ => .error (.usage verb)

def readRule (scope rule : String) : Except ConsoleError RuleRef :=
  (readScope scope).map fun scope => ⟨scope, rule⟩

def ofVerb (verb : ConsoleVerb) (rest : List Char) : Except ConsoleError ConsoleCommand :=
  let args := (Text.wordsOf rest).map String.ofList
  match verb with
  | .enter =>
    (readMove verb args).map fun (actor, room, d) => .occur (.roomEntered actor room d)
  | .exit => (readMove verb args).map fun (actor, room, d) => .occur (.roomExited actor room d)
  | .areaEnter =>
    match args with
    | [actor, source, target] => .ok (.occur (.areaEntered actor source target))
    | _ => .error (.usage verb)
  | .areaExit =>
    match args with
    | [actor, source, target] => .ok (.occur (.areaExited actor source target))
    | _ => .error (.usage verb)
  | .act =>
    match splitCommand? rest with
    | some (actor, room, text) => .ok (.occur (.commandAttempted actor room text))
    | none => .error (.usage verb)
  | .enable =>
    match args with
    | [scope, rule] => (readRule scope rule).map (.setEnabled · true)
    | _ => .error (.usage verb)
  | .disable =>
    match args with
    | [scope, rule] => (readRule scope rule).map (.setEnabled · false)
    | _ => .error (.usage verb)
  | .fire =>
    match args with
    | [scope, rule] => (readRule scope rule).map (.fire · none)
    | [scope, rule, actor] => (readRule scope rule).map (.fire · (some actor))
    | _ => .error (.usage verb)
  | .load => if rest.isEmpty then .error (.usage verb) else .ok (.load (String.ofList rest))
  | .unload =>
    match args with
    | [scope] => (readScope scope).map .unload
    | _ => .error (.usage verb)
  | .save => .ok .save
  | .quit => .ok .quit

def ofTrimmed (line : List Char) : Except ConsoleError (Option ConsoleCommand) :=
  match line with
  | [] => .ok none
  | '#' :: _ => .ok none
  | line =>
    let (word, rest) := splitBlank line
    let verb := String.ofList word
    match ConsoleVerb.ofText? verb with
    | some v => (ofVerb v (Text.trimOf (rest.getD []))).map some
    | none => .error (.unknownVerb verb)

def ofLine (line : String) : Except ConsoleError (Option ConsoleCommand) :=
  ofTrimmed (Text.trimOf line.toList)

end ConsoleCommand

end WorldTriggers
