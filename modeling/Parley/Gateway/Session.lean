import Parley.Cache.Dedupe
import Parley.Gateway.Dispatch
import Parley.Gateway.Inbound
import Parley.Gateway.Options
import Parley.Gateway.Ticker

/-! The task of a session. It feeds the machine with what it waits for and performs the effects that
the machine asks for, one after the other. Between two waits nobody else has a turn; whatever it
waits for arrives as a wake. -/
namespace Parley.Gateway

inductive Handshake where
  | identify
  | resume (sessionId : String) (sequence : UInt64)
deriving DecidableEq

inductive Doing where
  | working
  | connecting (url : String)
  | sending (frame : Frame)
  | disconnecting (code : UInt16)
  | delivering
  | listening
  /-- The machine has stopped; waits until all deliveries have been handled. -/
  | draining
  | stopped
  /-- Gone without a trace: no timer beats at intervals of zero. -/
  | crashed
deriving DecidableEq

inductive Wake where
  | proceed
  | opened
  | refused (error : Error)
  | sent
  | unsent (error : Error)
  | disconnected
  | delivered
  | shutdown
  | reconnectDue
  | tick
  | throttleClear
  | inbound
  | drained
deriving DecidableEq

/-- What a turn of the task depends on besides the session. -/
structure Surroundings where
  now : Instant
  roll : Nat
  isClear : Bool

structure Session where
  machine : Machine
  payload : Identify
  dispatch : DispatchQueue
  dedupe : Cache.Dedupe String
  inbox : Option Inbox
  ticker : Option Ticker
  reconnectAt : Option Instant
  /-- Waits for the throttle; everything else goes on meanwhile. -/
  held : Option Handshake
  isLeaving : Bool
  effects : List Effect
  /-- Inputs that are to be applied after them. -/
  inputs : List Input
  doing : Doing
deriving DecidableEq

namespace Session

def start (o : Options) (mode : DispatchMode) (x : Surroundings) : Session :=
  let fresh := Machine.create o.url o.backoff o.maxReconnectFailures.toNat
  let (machine, effects) := fresh.handle x.now x.roll .connect
  { machine, payload := o.identify, dispatch := .create mode, dedupe := .create o.dedupeCapacity,
    inbox := none, ticker := none, reconnectAt := none, held := none, isLeaving := false,
    effects, inputs := [], doing := .working }

def state (s : Session) : State := s.machine.state

def isOver (s : Session) : Bool := s.doing == .stopped || s.doing == .crashed

/-- Something new from the transport. It is lost if the connection is gone. -/
def receive (s : Session) (m : Inbound) : Session := { s with inbox := s.inbox.map (·.receive m) }

/-- The transport will bring nothing more over this connection. -/
def endInbound (s : Session) : Session :=
  { s with inbox := s.inbox.map fun i => { i with ended := true } }

def leave (s : Session) : Session := { s with isLeaving := true }

def frameOf (s : Session) : Handshake → Frame
  | .identify => .identify s.payload
  | .resume id sequence => .resume ⟨s.payload.token, id, sequence⟩

def send (s : Session) (frame : Frame) : Session := { s with doing := .sending frame }

/-- Sends a handshake if the throttle is clear, and holds it back otherwise. -/
def shake (s : Session) (x : Surroundings) (h : Handshake) : Session :=
  if x.isClear then s.send (s.frameOf h) else { s with held := some h }

def push (s : Session) (d : Delivery) : Session :=
  let dispatch := s.dispatch.push d
  { s with dispatch, doing := if dispatch.isPushing then .delivering else s.doing }

def deliver (s : Session) (e : Event) : Session :=
  match e.dedupeKey? with
  | none => s.push (.event e)
  | some key =>
    let (dedupe, isNew) := s.dedupe.tryAdd key
    if isNew then { s with dedupe }.push (.event e) else s

def perform (s : Session) (x : Surroundings) : Effect → Session
  | .openUrl url => { s with doing := .connecting url }
  | .identify => s.shake x .identify
  | .resume id sequence => s.shake x (.resume id sequence)
  | .heartbeat sequence => s.send (.heartbeat sequence)
  | .startHeartbeat interval =>
    if interval = .zero then { s with inbox := none, doing := .crashed }
    else { s with ticker := some (.start x.now interval x.roll) }
  | .stopHeartbeat => { s with ticker := none }
  | .closeTransport code => { s with inbox := none, held := none, doing := .disconnecting code }
  | .scheduleReconnect delay => { s with reconnectAt := some (x.now.plus delay) }
  | .deliver e => s.deliver e
  | .connected resumed => s.push (.connected resumed)
  | .disconnected cause => s.push (.closed cause)
  | .fatal _ => s

/-- Performs the next effect or else applies the next input; with neither, waits. -/
def proceed (s : Session) (x : Surroundings) : Session :=
  match s.effects, s.inputs with
  | e :: effects, _ => { s with effects }.perform x e
  | [], input :: inputs =>
    let (machine, effects) := s.machine.handle x.now x.roll input
    { s with machine, effects, inputs }
  | [], [] => { s with doing := if s.state.isStopped then .draining else .listening }

def resume (s : Session) (inputs : List Input) : Session :=
  { s with inputs := s.inputs ++ inputs, doing := .working }

def read (s : Session) : Session :=
  match s.inbox with
  | none => s
  | some i =>
    match i.unread with
    | .message bytes :: unread =>
      { s with inbox := some { i with unread } }.resume (Input.ofMessage? bytes).toList
    | .closed info :: _ => { s with inbox := none }.resume [.closed info]
    | [] =>
      if i.ended then { s with inbox := none }.resume [.closed ⟨none, "transport dropped"⟩]
      else s

def step (s : Session) (x : Surroundings) : Wake → Session
  | .proceed => s.proceed x
  | .opened => { s with inbox := some .empty }.resume [.opened]
  | .refused e => s.resume [.connectFailed e.message]
  | .sent | .disconnected | .delivered => s.resume []
  | .unsent e => s.resume [.closed ⟨none, e.message⟩]
  | .shutdown => s.resume [.shutdown]
  | .reconnectDue => { s with reconnectAt := none }.resume [.reconnectDue]
  | .tick =>
    let ticker := s.ticker.map fun t => t.next x.now
    { s with ticker }.resume [.tick]
  | .throttleClear =>
    match s.held with
    | some h => { s with held := none }.send (s.frameOf h)
    | none => s
  | .inbound => s.read
  | .drained => { s with doing := .stopped }

/-- What a listening session takes up next. Leaving comes before the timers, and these before what
the connection has brought. -/
def source? (s : Session) (x : Surroundings) : Option Wake :=
  if s.isLeaving then some .shutdown
  else if s.reconnectAt.any (· ≤ x.now) then some .reconnectDue
  else if s.ticker.any (·.due ≤ x.now) then some .tick
  else if s.held.isSome && x.isClear then some .throttleClear
  else if s.inbox.any Inbox.isReadable then some .inbound
  else none

/-- The wake may come. What the transport answers is not for the session to decide. -/
def allows (s : Session) (x : Surroundings) (w : Wake) : Bool :=
  match s.doing, w with
  | .working, .proceed => true
  | .connecting _, .opened => true
  | .connecting _, .refused _ => true
  | .connecting _, .shutdown => s.isLeaving
  | .sending _, .sent => true
  | .sending _, .unsent _ => true
  | .disconnecting _, .disconnected => true
  | .delivering, .delivered => !s.dispatch.isPushing
  | .listening, w => s.source? x == some w
  | .draining, .drained => s.dispatch.isDrained
  | _, _ => false

/-- The answer to those who wait for the session to be ready: nothing, or why it will not be. None
as long as that is open. -/
def readiness? (s : Session) : Option (Option ClientError) :=
  match s.state with
  | .ready => some none
  | .fatal => some (some (.sessionFatal (s.machine.fatalReason.getD "session failed")))
  | .disconnected => some (some (.transportClosed "session closed"))
  | _ => none

def endReason (s : Session) : ClientError :=
  match s.state with
  | .fatal => .sessionFatal (s.machine.fatalReason.getD "session failed")
  | _ => .transportClosed "session closed"

end Session

end Parley.Gateway
