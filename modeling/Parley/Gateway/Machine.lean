import Parley.Gateway.Backoff
import Parley.Gateway.Error
import Parley.Gateway.Event
import Parley.Gateway.Heartbeat

/-! The life of a session as a pure transition function: an input changes the state and asks for
effects, which somebody else performs in order. -/
namespace Parley.Gateway

inductive State where
  | disconnected
  | connecting
  | awaitingHello
  | identifying
  | resuming
  | ready
  | reconnecting
  | fatal
deriving DecidableEq, Inhabited

namespace State

def name : State → String
  | disconnected => "Disconnected"
  | connecting => "Connecting"
  | awaitingHello => "AwaitingHello"
  | identifying => "Identifying"
  | resuming => "Resuming"
  | ready => "Ready"
  | reconnecting => "Reconnecting"
  | fatal => "Fatal"

/-- A connection is open and the server has said hello. -/
def isLive : State → Bool
  | identifying | resuming | ready => true
  | _ => false

def isStopped : State → Bool
  | disconnected | fatal => true
  | _ => false

end State

inductive Input where
  | connect
  | opened
  | connectFailed (reason : String)
  | hello (interval : Duration)
  /-- An event, and its payload if it is a READY. -/
  | dispatch (event : Event) (ready : Option Ready)
  | tick
  | heartbeatRequested
  | heartbeatAck
  | reconnectRequested
  | invalidSession (resumable : Bool)
  | closed (info : CloseInfo)
  | reconnectDue
  | shutdown
deriving DecidableEq

inductive Effect where
  | openUrl (url : String)
  | identify
  | resume (sessionId : String) (sequence : UInt64)
  | heartbeat (sequence : Option UInt64)
  | startHeartbeat (interval : Duration)
  | stopHeartbeat
  | closeTransport (code : UInt16)
  | scheduleReconnect (delay : Duration)
  | deliver (event : Event)
  | connected (resumed : Bool)
  | disconnected (cause : CloseCause)
  | fatal (reason : String)
deriving DecidableEq

structure Machine where
  state : State
  url : String
  sessionId : Option String
  sequence : Option UInt64
  resumeUrl : Option String
  /-- Attempts in a row that did not become ready. -/
  failures : Nat
  maxFailures : Nat
  backoff : Backoff
  heartbeat : Heartbeat
  fatalReason : Option String
deriving DecidableEq

namespace Machine

/-- A machine that allows at least one failure. -/
def create (url : String) (backoff : Backoff) (maxFailures : Nat) : Machine :=
  ⟨.disconnected, url, none, none, none, 0, max maxFailures 1, backoff, .idle, none⟩

def canResume (m : Machine) : Bool := m.sessionId.isSome && m.sequence.isSome

def handshakeUrl (m : Machine) : String :=
  match m.resumeUrl with
  | some url => if m.canResume then url else m.url
  | none => m.url

def forget (m : Machine) : Machine :=
  { m with sessionId := none, sequence := none, resumeUrl := none }

def enterFatal (m : Machine) (effects : List Effect) (code : Option UInt16) (error : Error) :
    Machine × List Effect :=
  let reason := error.message
  let shown := match code with
    | some code => describeClose code
    | none => reason
  ({ m.forget with fatalReason := some reason, state := .fatal },
    effects ++ [.disconnected ⟨code, shown, .fatal⟩, .fatal reason])

/-- Tears the connection down and plans the next attempt, after `wait` or else the backoff's
delay. A loss counts as a failure unless the session was ready. -/
def connectionLost (m : Machine) (roll : Nat) (code : Option UInt16) (reason : String)
    (action : CloseAction) (wait : Option Duration) : Machine × List Effect :=
  let wasReady := m.state == .ready
  let m := { m with heartbeat := m.heartbeat.stop }
  let closeCode := if action = .resume then resumableClose else normalClose
  let effects := [Effect.stopHeartbeat, .closeTransport closeCode]
  if action.isFatal then
    m.enterFatal effects code (match code with
      | some code => .fatalClose code
      | none => .closed)
  else
    let m := if action = .reidentify then m.forget else m
    let m := if wasReady then m else { m with failures := m.failures + 1 }
    if m.failures ≥ m.maxFailures then m.enterFatal effects code (.exhausted m.failures)
    else
      let next := if m.canResume then NextStep.resume else .reidentify
      let delay := wait.getD (m.backoff.delay m.failures roll)
      ({ m with state := .reconnecting },
        effects ++ [.disconnected ⟨code, reason, next⟩, .scheduleReconnect delay])

def onHello (m : Machine) (interval : Duration) : Machine × List Effect :=
  let m := { m with heartbeat := m.heartbeat.start interval }
  match m.sessionId, m.sequence with
  | some id, some sequence =>
    ({ m with state := .resuming }, [.startHeartbeat interval, .resume id sequence])
  | _, _ => ({ m.forget with state := .identifying }, [.startHeartbeat interval, .identify])

/-- Stores what resuming needs; the first event after a handshake makes the session ready. -/
def onDispatch (m : Machine) (event : Event) (ready : Option Ready) : Machine × List Effect :=
  let m : Machine := match event.sequence with
    | some s => { m with sequence := some s }
    | none => m
  let m : Machine := match ready with
    | some r => { m with sessionId := some r.sessionId, resumeUrl := r.resumeUrl }
    | none => m
  if m.state = .identifying ∨ m.state = .resuming then
    ({ m with failures := 0, state := .ready },
      [.connected (m.state == .resuming), .deliver event])
  else (m, [.deliver event])

/-- A second heartbeat without an acknowledgement of the first means a dead connection. -/
def onTick (m : Machine) (now : Instant) (roll : Nat) : Machine × List Effect :=
  if m.heartbeat.isAwaiting then
    m.connectionLost roll none "heartbeat ack timeout" .resume none
  else ({ m with heartbeat := m.heartbeat.sent now }, [.heartbeat m.sequence])

def onShutdown (m : Machine) : Machine × List Effect :=
  if m.state = .disconnected then (m, [])
  else
    ({ m.forget with heartbeat := m.heartbeat.stop, state := .disconnected },
      [.stopHeartbeat, .closeTransport normalClose,
        .disconnected ⟨some normalClose, "shutdown", .shutdown⟩])

/-- Applies one input at `now`; `roll` decides the random part of a wait. Inputs that the state
does not expect change nothing. -/
def handle (m : Machine) (now : Instant) (roll : Nat) (input : Input) : Machine × List Effect :=
  match m.state, input with
  | .fatal, _ => (m, [])
  | _, .shutdown => m.onShutdown
  | .disconnected, .connect => ({ m with state := .connecting }, [.openUrl m.url])
  | .connecting, .opened => ({ m with state := .awaitingHello }, [])
  | .connecting, .connectFailed reason => m.connectionLost roll none reason .resume none
  | .awaitingHello, .hello interval => m.onHello interval
  | .reconnecting, .reconnectDue =>
    ({ m with state := .connecting }, [.openUrl m.handshakeUrl])
  | _, .heartbeatAck => ({ m with heartbeat := (m.heartbeat.acked now).1 }, [])
  | .awaitingHello, .closed info =>
    m.connectionLost roll info.code info.reason (actionOf info) none
  | state, input =>
    if state.isLive then
      match input with
      | .dispatch event ready => m.onDispatch event ready
      | .tick => m.onTick now roll
      | .heartbeatRequested => (m, [.heartbeat m.sequence])
      | .reconnectRequested =>
        m.connectionLost roll none "server requested reconnect" .resume none
      | .invalidSession resumable =>
        m.connectionLost roll none "invalid session"
          (if resumable then .resume else .reidentify) (some (Backoff.invalidSessionWait roll))
      | .closed info => m.connectionLost roll info.code info.reason (actionOf info) none
      | _ => (m, [])
    else (m, [])
where
  actionOf (info : CloseInfo) : CloseAction :=
    match info.code with
    | some code => CloseAction.forCode code
    | none => .resume

end Machine

end Parley.Gateway
