import WorldTriggers.Console
import WorldTriggers.Service.Basic
import WorldTriggers.Store

namespace WorldTriggers

structure Session where
  service : Service
  store : Store

namespace Session

def manualContext (scope : Scope) (actor : Option ActorId) : Context :=
  match scope with
  | .room r => { actor, room := some r }
  | .area a => { actor, area := some a }

def reportLines (r : LoadReport) : List String :=
  (r.scope.text ++ ": " ++ toString r.loaded ++ " loaded, " ++ toString r.rejected.length ++
    " rejected") :: r.rejected.map fun d => "  " ++ d.text

def replyLines (missed : String) : Reply → List String
  | .dispatched d => if d.handled then [] else [missed]
  | .loaded r => reportLines r
  | .refused e => [e.message]
  | _ => []

def ask (s : Session) (missed : String) (r : Request) : List String × Session :=
  match s.service.ask r with
  | (some reply, service) => (replyLines missed reply, { s with service })
  | (none, service) => (["the service has stopped"], { s with service })

def keep (s : Session) : Session :=
  let (snapshots, service) := s.service.takeSnapshots
  ⟨service, snapshots.foldl Store.save s.store⟩

def save (s : Session) : List String × Session :=
  let records := s.service.engine.exported
  (["saved " ++ toString records.length ++ " records"], { s with store := s.store.save records })

def obey (s : Session) (content : Option Content) : ConsoleCommand → List String × Session
  | .occur o => s.ask "(no trigger fired)" (.dispatch o)
  | .setEnabled rule enabled => s.ask "" (.setEnabled rule enabled)
  | .fire rule actor =>
    s.ask "(trigger did not fire)" (.fireRule rule (manualContext rule.scope actor))
  | .load path =>
    match content with
    | some c => s.ask "" (.load c)
    | none => (["no scope in " ++ path], s)
  | .unload scope =>
    let wasLoaded := s.service.engine.catalog.contains scope
    let (lines, s) := s.ask "" (.unload scope)
    ((if wasLoaded then lines else lines ++ [scope.text ++ " is not loaded"]), s)
  | .save => s.save
  | .quit => ([], { s with service := s.service.close })

def news (s : Session) : List Notice × Session :=
  let ((_, notices), service) := s.service.readFeed
  (notices, { s with service })

end Session

end WorldTriggers
