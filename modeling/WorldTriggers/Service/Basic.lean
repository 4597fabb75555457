import WorldTriggers.Engine.Lifecycle
import WorldTriggers.Service.Feed
import WorldTriggers.Time.Clock

/-!
The service: an engine with its world, which takes requests in turn, wakes up by itself when jobs are
due, and saves the records of permanent rules from time to time and when it stops. `ask` waits for a
reply, `submit` only until there is room in the inbox; `sleep` lets time pass.
-/

namespace WorldTriggers

inductive Request where
  | dispatch (occurrence : Occurrence)
  | load (content : Content)
  | unload (scope : Scope)
  | setEnabled (rule : RuleRef) (enabled : Bool)
  | fireRule (rule : RuleRef) (context : Context)
  | restore (records : List Record)
  | snapshot

inductive Reply where
  | dispatched (result : Dispatch)
  | loaded (report : LoadReport)
  | unloaded (wasLoaded : Bool)
  | switched (notice : Notice)
  | restored (applied : Nat)
  | snapshot (records : List Record)
  | refused (error : EngineError)

structure Outbox where
  capacity : Nat
  snapshots : List (List Record) := []

namespace Outbox

def hasRoom (b : Outbox) : Bool := b.snapshots.length < b.capacity

def push (b : Outbox) (records : List Record) : Outbox :=
  { b with snapshots := b.snapshots ++ [records] }

end Outbox

structure ServiceOptions where
  inboxCapacity : Nat := 64
  feedCapacity : Nat := 1024
  outboxCapacity : Option Nat := none
  savePeriod : Option Span := none
  budget : Nat

inductive Phase where
  | running
  | saving (records : List Record)
  | stopped

structure Service where
  engine : Engine
  world : World
  clock : Clock
  moment : Moment
  budget : Nat
  inboxCapacity : Nat
  inbox : List Occurrence := []
  feed : Feed
  outbox : Option Outbox
  savePeriod : Option Span
  nextSave : Option Moment
  handled : Nat := 0
  isClosing : Bool := false
  phase : Phase := .running

namespace Service

def start (engine : Engine) (world : World) (clock : Clock) (options : ServiceOptions) : Service :=
  let savePeriod := options.savePeriod.filter (0 < ·)
  { engine
    world
    clock
    moment := clock.anchor
    budget := options.budget
    inboxCapacity := max options.inboxCapacity 1
    feed := .ofCapacity options.feedCapacity
    outbox := options.outboxCapacity.map fun capacity => { capacity }
    savePeriod
    nextSave := savePeriod.map (clock.anchor + ·) }

def now (s : Service) : Instant := s.clock.now s.moment

def publish (s : Service) (notices : List Notice) : Service :=
  { s with feed := s.feed.publish notices }

section Requests

def conclude (s : Service) : Dispatch × Engine × World → Reply × Service
  | (d, engine, world) => (.dispatched d, { s with engine, world }.publish d.notices)

def carryOut (s : Service) : Request → Reply × Service
  | .dispatch o => s.conclude (s.engine.handle s.world o s.now)
  | .load content =>
    let (report, engine) := s.engine.load content s.now
    (.loaded report, { s with engine })
  | .unload scope =>
    let (wasLoaded, engine) := s.engine.unload scope
    (.unloaded wasLoaded, { s with engine })
  | .setEnabled rule enabled =>
    match s.engine.setEnabled rule enabled s.now with
    | .ok (notice, engine) => (.switched notice, { s with engine }.publish [notice])
    | .error e => (.refused e, s)
  | .fireRule rule context =>
    match s.engine.fireRule s.world rule context s.now with
    | .ok outcome => s.conclude outcome
    | .error e => (.refused e, s)
  | .restore records =>
    let (applied, engine) := s.engine.restore records
    (.restored applied, { s with engine })
  | .snapshot => (.snapshot s.engine.exported, s)

def serve (s : Service) (r : Request) : Reply × Service :=
  let (reply, s) := s.carryOut r
  (reply, { s with handled := s.handled + 1 })

def emptyInbox (s : Service) : Service :=
  s.inbox.foldl (fun s o => (s.serve (.dispatch o)).2) { s with inbox := [] }

end Requests

section Stopping

def handOver (s : Service) (records : List Record) : Service :=
  match s.outbox with
  | none => { s with phase := .stopped }
  | some b =>
    if b.hasRoom then { s with outbox := some (b.push records), phase := .stopped }
    else { s with phase := .saving records }

def isStopped (s : Service) : Bool :=
  match s.phase with
  | .stopped => true
  | _ => false

def isRunning (s : Service) : Bool :=
  match s.phase with
  | .running => true
  | _ => false

end Stopping

section Waking

def jobMoment? (s : Service) : Option Moment :=
  s.engine.nextDeadline?.map fun t => (s.clock.momentOf s.moment t).wake

def runJobs (s : Service) : Service :=
  if s.jobMoment?.any (· ≤ s.moment) then
    match s.engine.advance s.budget s.world s.now with
    | some (notices, engine, world) => { s with engine, world }.publish notices
    | none => { s with phase := .stopped }
  else s

def save (s : Service) : Service :=
  { s with
    outbox := s.outbox.map fun b => if b.hasRoom then b.push s.engine.exported else b }

def saveIfDue (s : Service) : Service :=
  match s.nextSave, s.savePeriod with
  | some m, some period =>
    if m ≤ s.moment then { s.save with nextSave := some (m + period) } else s
  | _, _ => s

def settle (s : Service) : Service :=
  match s.phase with
  | .running =>
    let s := s.emptyInbox
    if s.isClosing then s.handOver s.engine.exported else s.runJobs.saveIfDue
  | .saving records => s.handOver records
  | .stopped => s

def nextWake? (s : Service) : Option Moment :=
  if s.isRunning then
    match s.jobMoment?, s.nextSave.map Moment.wake with
    | some a, some b => some (min a b)
    | some a, none => some a
    | none, b => b
  else none

def passTo (target : Moment) : (limit : Nat) → Service → Service
  | 0, s => { s with moment := target }
  | limit + 1, s =>
    match s.nextWake? with
    | none => { s with moment := target }
    | some m =>
      if m < target then passTo target limit { s with moment := max s.moment m }.settle
      else { s with moment := target }

end Waking

def ask (s : Service) (r : Request) : Option Reply × Service :=
  let s := s.settle
  if s.isRunning then
    let (reply, s) := s.serve r
    (some reply, s.settle)
  else (none, s)

def submit (s : Service) (o : Occurrence) : Bool × Service :=
  let s := if s.inbox.length < s.inboxCapacity then s else s.settle
  if s.isStopped then (false, s) else (true, { s with inbox := s.inbox ++ [o] })

def sleep (s : Service) (milliseconds : Nat) : Service :=
  if milliseconds = 0 then s
  else passTo (s.moment + milliseconds * 1000000) milliseconds s.settle

def close (s : Service) : Service := { s with isClosing := true }

def takeSnapshots (s : Service) : List (List Record) × Service :=
  match s.outbox with
  | none => ([], s)
  | some b => (b.snapshots, { s with outbox := some { b with snapshots := [] } })

def readFeed (s : Service) : (Nat × List Notice) × Service :=
  let (news, feed) := s.feed.read
  (news, { s with feed })

end Service

end WorldTriggers
