import Parley.Client.Basic
import Parley.Gateway.Errand
import Parley.Rehearsal.Handler
import Parley.Rehearsal.Requests

/-! A rehearsal of a whole client, or of its session alone, over scripted transports. -/
namespace Parley.Rehearsal

open Gateway (Session Surroundings Errand Wake Frame Delivery Inbound)

inductive Wire where
  | connect (url : String)
  | send (frame : Frame)
  | close (code : UInt16)
deriving DecidableEq

/-- The transport of a session. It answers at once, but for a connect that never returns. -/
structure Server where
  refusals : Nat
  isSilent : Bool
  isDeaf : Bool
  /-- A connect that never returns is under way. -/
  isDialing : Bool
  wire : List Wire
deriving DecidableEq

namespace Server

def create (refusals : Nat) : Server := ⟨refusals, false, false, false, []⟩

def log (s : Server) (w : Wire) : Server := { s with wire := s.wire ++ [w] }

def connect (s : Server) (url : String) : Server × Option Wake :=
  let s := s.log (.connect url)
  if s.isSilent then ({ s with isDialing := true }, none)
  else
    match s.refusals with
    | 0 => (s, some .opened)
    | n + 1 => ({ s with refusals := n }, some (.refused (.connect "refused")))

def send (s : Server) (frame : Frame) : Server × Option Gateway.Error :=
  if s.isDeaf then (s, some (.send "broken pipe")) else (s.log (.send frame), none)

end Server

inductive PlayTask where
  | session
  | handler
  | guard
  | errand (id : Nat)
  | request (task : RequestTask)
deriving DecidableEq

structure Play where
  client : Client
  server : Server
  handler : Handler
  callers : Table Nat Caller
  errands : Table Nat Errand

namespace Play

def requests (p : Play) : Requests :=
  ⟨p.client.queue, p.callers, ⟨p.client.sweep.toList.map fun s => (0, s)⟩⟩

def withRequests (p : Play) (r : Requests) : Play :=
  { p with
    client := { p.client with queue := r.queue, sweep := r.sweeps.get? 0 }, callers := r.callers }

def withSession (p : Play) (session : Session) : Play :=
  { p with client := { p.client with session } }

def roll : Nat := 4503599627370496

def surroundingsAt (now : Nat) (isClear : Bool) : Surroundings := ⟨.ofMillis now, roll, isClear⟩

def surroundings (p : Play) (now : Nat) : Surroundings :=
  surroundingsAt now (p.client.queue.gate.isOpen (.ofMillis now))

def ofClient (client : Client) (refusals : Nat) : Play :=
  { client, server := .create refusals, handler := .idle, callers := .empty, errands := .empty }

/-- A session alone: nobody guards or uses the queue, whose gate it heeds. -/
def ofSession (options : Gateway.Options) (mode : Gateway.DispatchMode) (refusals : Nat) : Play :=
  let rest := RestConfig.standard
  ofClient {
    session := .start options mode (surroundingsAt 0 true)
    queue := .create rest.preemptiveBackoff
    caches := .create 0
    rest := .ofConfig rest
    sweep := none
    isGuarded := false } refusals

/-- What the session's task goes on with, and what the transport makes of it. -/
def wake? (p : Play) (now : Nat) : Server × Option Wake :=
  let s := p.client.session
  match s.doing with
  | .working => (p.server, some .proceed)
  | .connecting url =>
    if s.isLeaving then ({ p.server with isDialing := false }, some .shutdown)
    else if p.server.isDialing then (p.server, none)
    else p.server.connect url
  | .sending frame =>
    match p.server.send frame with
    | (server, none) => (server, some .sent)
    | (server, some e) => (server, some (.unsent e))
  | .disconnecting code => (p.server.log (.close code), some .disconnected)
  | .delivering => (p.server, if s.dispatch.isPushing then none else some .delivered)
  | .listening => (p.server, s.source? (p.surroundings now))
  | .draining => (p.server, if s.dispatch.isDrained then some .drained else none)
  | .stopped | .crashed => (p.server, none)

def runSession (now : Nat) : Nat → Play → Play
  | 0, p => p
  | turns + 1, p =>
    let x := p.surroundings now
    match p.wake? now with
    | (server, none) => { p with server }
    | (server, some w) =>
      runSession now turns ({ p with server }.withSession (p.client.session.step x w))

def runHandler (p : Play) (now : Nat) : Play :=
  let (handler, dispatch, taken) := p.handler.run p.client.session.dispatch now
  let w := taken.toList.foldl (Client.Watched.call (Handler.begin now)) ⟨p.client.caches, handler⟩
  { p with
    handler := w.application
    client := { p.client with
      session := { p.client.session with dispatch }, caches := w.caches } }

def canRunErrand (p : Play) (now : Nat) (e : Errand) : Bool :=
  let x := p.surroundings now
  match e.progress with
  | .begun | .writing _ => true
  | .waiting => (e.look? p.client.session x).isSome
  | .throttled _ => x.isClear
  | .done _ => false

def settleErrand (p : Play) (id : Nat) (e : Errand) : Play :=
  match e.progress with
  | .writing frame =>
    let (server, failure) := p.server.send frame
    { p with server, errands := p.errands.insert id (e.written failure) }
  | _ => { p with errands := p.errands.insert id e }

def runErrand (p : Play) (now : Nat) (id : Nat) (e : Errand) : Play :=
  let (e, session) := e.goOn p.client.session (p.surroundings now)
  (p.withSession session).settleErrand id e

def tasks (p : Play) : List PlayTask :=
  [.session, .handler, .guard] ++ p.errands.keys.map .errand ++ p.requests.tasks.map .request

def canRun (now : Nat) (p : Play) : PlayTask → Bool
  | .session => (p.wake? now).2.isSome || (p.wake? now).1 ≠ p.server
  | .handler => p.handler.canRun p.client.session.dispatch now
  | .guard => p.client.canGuard
  | .errand id => (p.errands.get? id).any (p.canRunErrand now)
  | .request t => p.requests.canRun now t

def run (now : Nat) (p : Play) : PlayTask → Play
  | .session => p.runSession now Scene.turnLimit
  | .handler => p.runHandler now
  | .guard => { p with client := p.client.guard }
  | .errand id =>
    match p.errands.get? id with
    | some e => p.runErrand now id e
    | none => p
  | .request t => p.withRequests (p.requests.run now t)

/-- Moments for which the session waits, the opening of the gate aside. -/
def sessionMoments (s : Session) : List Nat :=
  match s.doing with
  | .listening => ((s.reconnectAt.toList ++ (s.ticker.map Gateway.Ticker.due).toList).map Instant.firesAt)
  | _ => []

def moments (p : Play) : List Nat :=
  sessionMoments p.client.session ++ p.client.queue.gate.blocked.toList.map Instant.firesAt ++
    p.handler.due.toList ++ p.requests.moments

def schedule : Schedule PlayTask Play where
  tasks := tasks
  canRun := canRun
  run := run
  next? now p := earliest now p.moments

def receive (p : Play) (m : Inbound) : Play := p.withSession (p.client.session.receive m)

def endInbound (p : Play) : Play := p.withSession p.client.session.endInbound

def isHeard (p : Play) : Bool := p.client.session.inbox.any fun i => !i.ended

def startErrand (p : Play) (id : Nat) (c : Gateway.Command) : Play :=
  { p with errands := p.errands.insert id (.create c) }

def submit (p : Play) (id : Nat) (request : Rest.Request) (script : List Reply) (now : Nat) : Play :=
  p.withRequests (p.requests.submit id request script now)

def isErrandOver (p : Play) (id : Nat) : Bool :=
  ((p.errands.get? id).bind Errand.verdict?).isSome

def trip (p : Play) (d : Duration) (now : Nat) : Play :=
  let queue := p.client.queue
  { p with client := { p.client with
    queue := { queue with gate := queue.gate.trip ((Instant.ofMillis now).plus d) } } }

def retire (p : Play) : Play := { p with client := p.client.retire }

def isGateOpen (p : Play) (now : Nat) : Bool := p.client.queue.gate.isOpen (.ofMillis now)

end Play

end Parley.Rehearsal
