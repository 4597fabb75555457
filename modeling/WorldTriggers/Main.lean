import Std.Time.DateTime.Timestamp
import WorldTriggers.Config
import WorldTriggers.Content.Directory
import WorldTriggers.Json.Printer
import WorldTriggers.Json.Reader
import WorldTriggers.Session
import WorldTriggers.StoreLocation
import WorldTriggers.World.Fixture

namespace WorldTriggers.Program

def readFile? (path : String) : IO (Option String) := do
  try
    return some (← IO.FS.readFile path)
  catch _ =>
    return none

def say (line : String) : IO Unit := do
  (← IO.getStderr).putStrLn line

def orThrow (message : ε → String) : Except ε α → IO α
  | .ok a => return a
  | .error e => throw (IO.userError (message e))

def wallClock : IO Instant := do
  return (← Std.Time.Timestamp.now).toNanosecondsSinceUnixEpoch.val

def drawsOf (seed : Nat) : Draws where
  draw _ context rule now _ :=
    Float.ofNat ((hash (seed, context.actor, rule, now)).toNat % 10000) / 100

def readConfig (path : String) : IO Config := do
  let text ← readFile? path
  orThrow ConfigError.message (Config.ofFileOrDefault (text.map Config.document?) none)

def readWorld (path : String) : IO World := do
  match ← readFile? path with
  | none => return {}
  | some text =>
    match WorldFixture.ofText? text with
    | none => throw (IO.userError ("no world in " ++ path))
    | some f => orThrow WorldError.message f.build

def readContent? (path : String) : IO (Option Content) := do
  return (← readFile? path).bind fun text => Content.ofFile? (Yaml.Node.ofText? text) path

def readStore : StorePlace → IO Store
  | .memory => return {}
  | .file path => do
    match (← readFile? path).bind Json.ofText? with
    | none => return {}
    | some v => orThrow DecodeError.message (Store.ofJson v)

def writeStore (place : StorePlace) (s : Store) : IO Unit :=
  match place with
  | .memory => return
  | .file path => do IO.FS.writeFile path (← orThrow CorruptRow.message s.toJson).text

def locationMessage : LocationFault → String
  | .malformed => "the database setting is malformed"
  | .unusable => "the database cannot be used"

def settle (place : StorePlace) (s : Session) : IO Session := do
  let (notices, s) := s.news
  notices.forM fun n => do (← IO.getStdout).putStrLn n.toJson.text
  let kept := s.keep
  if kept.store.rows.entries != s.store.rows.entries then writeStore place kept.store
  return kept

def catchUp (started : Nat) (s : Session) : IO Session := do
  let elapsed := (← IO.monoMsNow) - started
  let passed := ((s.service.moment - s.service.clock.anchor) / 1000000).toNat
  return { s with service := (s.service.sleep (elapsed - passed)).settle }

def contentFor? : Option ConsoleCommand → IO (Option Content)
  | some (.load path) => readContent? path
  | _ => return none

def runLine (place : StorePlace) (line : String) (s : Session) : IO (Bool × Session) := do
  match ConsoleCommand.ofLine line with
  | .error e =>
    say e.message
    return (true, s)
  | .ok none => return (true, s)
  | .ok (some .quit) => return (false, s)
  | .ok (some c) =>
    let (lines, s) := s.obey (← contentFor? (some c)) c
    lines.forM say
    return (true, ← settle place s)

partial def console (place : StorePlace) (started : Nat) (line : Task (Except IO.Error String))
    (s : Session) : IO Session := do
  let s ← settle place (← catchUp started s)
  if ← IO.hasFinished line then
    let text ← orThrow toString line.get
    if text.isEmpty then return s
    let (goesOn, s) ← runLine place text s
    if goesOn then console place started (← IO.asTask (← IO.getStdin).getLine) s else return s
  else
    IO.sleep 20
    console place started line s

def run (configPath : String) (scopeFiles : List String) : IO Unit := do
  let config ← readConfig configPath
  let world ← readWorld config.worldFile
  let place ← orThrow locationMessage (StoreLocation.placeOf config.databaseUrl)
  let store ← readStore place
  let engine := Engine.ofSettings (.builtin config.maxCascadeDepth (drawsOf (← IO.rand 0 UInt64.size)))
  let (_, engine) := engine.restore (← orThrow CorruptRow.message store.loadAll)
  let now ← wallClock
  let mut engine := engine
  for name in scopeFiles do
    match ← readContent? (config.triggersDirectory ++ "/" ++ name) with
    | none => say ("no scope in " ++ name)
    | some c =>
      let (report, next) := engine.load c now
      (Session.reportLines report).forM say
      engine := next
  let options : ServiceOptions := {
    inboxCapacity := config.commandCapacity
    feedCapacity := config.outboundCapacity
    outboxCapacity := some 4
    savePeriod := some (config.autosaveSeconds * Span.second)
    budget := 1000000 }
  let session : Session := ⟨.start engine world ⟨0, now⟩ options, store⟩
  let line ← IO.asTask (← IO.getStdin).getLine
  let session ← console place (← IO.monoMsNow) line session
  discard (settle place { session with service := session.service.close.settle })

end WorldTriggers.Program

def main (args : List String) : IO Unit :=
  match args with
  | [] => WorldTriggers.Program.run "world-triggers.yaml" []
  | configPath :: scopeFiles => WorldTriggers.Program.run configPath scopeFiles
