import Parley.Gateway.Session
import Parley.Proofs.Gateway.Transitions

/-! The graph of a machine's states: which input leads from which state to which other, and what the
effects on the way look like. -/
namespace Parley.Gateway

def NextStep.isFinal : NextStep → Bool
  | fatal | shutdown => true
  | _ => false

namespace Handshake

/-- The state in which a session waits for the answer. -/
def state : Handshake → State
  | identify => .identifying
  | resume .. => .resuming

def effect : Handshake → Effect
  | identify => .identify
  | resume id sequence => .resume id sequence

end Handshake

def State.reactsTo (s : State) : Input → Bool
  | .connect => s == .disconnected
  | .opened | .connectFailed _ => s == .connecting
  | .hello _ => s == .awaitingHello
  | .dispatch .. | .tick | .heartbeatRequested | .reconnectRequested | .invalidSession _ => s.isLive
  | .heartbeatAck => false
  | .closed _ => s.isOpen
  | .reconnectDue => s == .reconnecting
  | .shutdown => !s.isStopped

inductive Transition : State → Input → State → List Effect → Prop
  | stay {s i} (hr : s.reactsTo i = false) : Transition s i s []
  | connect (url) : Transition .disconnected .connect .connecting [.openUrl url]
  | reconnect (url) : Transition .reconnecting .reconnectDue .connecting [.openUrl url]
  | opened : Transition .connecting .opened .awaitingHello []
  | greet (interval) (h : Handshake) :
    Transition .awaitingHello (.hello interval) h.state [.startHeartbeat interval, h.effect]
  | beat {s i} (sequence) (hl : s.isLive = true) (hi : i = .tick ∨ i = .heartbeatRequested) :
    Transition s i s [.heartbeat sequence]
  | connected {s} (event ready) (hs : s = .identifying ∨ s = .resuming) :
    Transition s (.dispatch event ready) .ready [.connected (s == .resuming), .deliver event]
  | event (event ready) :
    Transition .ready (.dispatch event ready) .ready [.deliver event]
  | lose {s} (i) {cause} (code delay) (hs : s.isStopped = false) (hc : cause.next.isFinal = false) :
    Transition s i .reconnecting
      [.stopHeartbeat, .closeTransport code, .disconnected cause, .scheduleReconnect delay]
  | fail {s} (i) {cause} (code reason) (hs : s.isStopped = false) (hc : cause.next.isFinal = true) :
    Transition s i .fatal
      [.stopHeartbeat, .closeTransport code, .disconnected cause, .fatal reason]
  | shutdown {s} {cause} (code) (hs : s.isStopped = false) (hc : cause.next.isFinal = true) :
    Transition s .shutdown .disconnected [.stopHeartbeat, .closeTransport code, .disconnected cause]

namespace State

theorem not_isStopped_of_isOpen {s : State} (h : s.isOpen = true) : s.isStopped = false := by
  cases s <;> first | rfl | exact nomatch h

theorem not_isStopped_of_isLive {s : State} (h : s.isLive = true) : s.isStopped = false :=
  not_isStopped_of_isOpen (isOpen_of_isLive h)

end State

namespace Machine
variable (m : Machine) (now : Instant) (roll : Nat)

theorem transition_connectionLost (i : Input) (hs : m.state.isStopped = false)
    (code : Option UInt16) (reason : String) (action : CloseAction) (wait : Option Duration) :
    Transition m.state i (m.connectionLost roll code reason action wait).1.state
      (m.connectionLost roll code reason action wait).2 := by
  by_cases ha : action = .fatal
  · subst ha
    exact .fail i _ _ hs rfl
  · rw [connectionLost_of_ne_fatal m roll code reason wait ha]
    split
    · exact .fail i _ _ hs rfl
    · refine .lose i _ _ hs ?_
      dsimp only
      split <;> rfl

theorem transition_onHello (interval : Duration) (hw : m.state = .awaitingHello) :
    Transition m.state (.hello interval) (m.onHello interval).1.state (m.onHello interval).2 := by
  rw [hw]
  unfold onHello
  cases m.sessionId with
  | none => exact .greet interval .identify
  | some id =>
    cases m.sequence with
    | none => exact .greet interval .identify
    | some sequence => exact .greet interval (.resume id sequence)

theorem transition_onDispatch (event : Event) (ready : Option Ready) (hl : m.state.isLive = true) :
    Transition m.state (.dispatch event ready) (m.onDispatch event ready).1.state
      (m.onDispatch event ready).2 := by
  rw [state_onDispatch m event ready hl, effects_onDispatch]
  split
  · next hs => exact .connected event ready hs
  · next hs =>
    have hr : m.state = .ready := by
      obtain h | h | h := State.isLive_cases hl
      · exact absurd (.inl h) hs
      · exact absurd (.inr h) hs
      · exact h
    rw [hr]
    exact .event event ready

/-- Whatever comes in, a machine moves along the graph. -/
theorem transition (i : Input) :
    Transition m.state i (m.handle now roll i).1.state (m.handle now roll i).2 := by
  cases i with
  | connect =>
    rw [handle_connect]
    split
    · next hd => rw [hd]; exact .connect _
    · next hd => exact .stay (by simpa [State.reactsTo] using hd)
  | opened =>
    rw [handle_opened]
    split
    · next hc => rw [hc]; exact .opened
    · next hc => exact .stay (by simpa [State.reactsTo] using hc)
  | connectFailed reason =>
    rw [handle_connectFailed]
    split
    · next hc => exact transition_connectionLost m roll _ (by rw [hc]; rfl) ..
    · next hc => exact .stay (by simpa [State.reactsTo] using hc)
  | hello interval =>
    rw [handle_hello]
    split
    · next hw => exact transition_onHello m interval hw
    · next hw => exact .stay (by simpa [State.reactsTo] using hw)
  | dispatch event ready =>
    rw [handle_dispatch]
    split
    · next hl => exact transition_onDispatch m event ready hl
    · next hl => exact .stay (by simpa [State.reactsTo] using hl)
  | tick =>
    rw [handle_tick]
    split
    · next hl =>
      unfold onTick
      split
      · exact transition_connectionLost m roll _ (State.not_isStopped_of_isLive hl) ..
      · exact .beat m.sequence hl (.inl rfl)
    · next hl => exact .stay (by simpa [State.reactsTo] using hl)
  | heartbeatRequested =>
    rw [handle_heartbeatRequested]
    dsimp only
    split
    · next hl => exact .beat m.sequence hl (.inr rfl)
    · next hl => exact .stay (by simpa [State.reactsTo] using hl)
  | heartbeatAck =>
    rw [handle_heartbeatAck]
    split <;> exact .stay rfl
  | reconnectRequested =>
    rw [handle_reconnectRequested]
    split
    · next hl => exact transition_connectionLost m roll _ (State.not_isStopped_of_isLive hl) ..
    · next hl => exact .stay (by simpa [State.reactsTo] using hl)
  | invalidSession resumable =>
    rw [handle_invalidSession]
    split
    · next hl => exact transition_connectionLost m roll _ (State.not_isStopped_of_isLive hl) ..
    · next hl => exact .stay (by simpa [State.reactsTo] using hl)
  | closed info =>
    rw [handle_closed]
    split
    · next ho => exact transition_connectionLost m roll _ (State.not_isStopped_of_isOpen ho) ..
    · next ho => exact .stay (by simpa [State.reactsTo] using ho)
  | reconnectDue =>
    rw [handle_reconnectDue]
    split
    · next hr => rw [hr]; exact .reconnect _
    · next hr => exact .stay (by simpa [State.reactsTo] using hr)
  | shutdown =>
    rw [handle_shutdown]
    split
    · next hf => exact .stay (by simp [State.reactsTo, hf, State.isStopped])
    · next hf =>
      unfold onShutdown
      split
      · next hd => exact .stay (by simp [State.reactsTo, hd, State.isStopped])
      · next hd =>
        refine .shutdown _ ?_ rfl
        rw [Bool.eq_false_iff]
        exact fun hs => (State.isStopped_cases hs).elim hd hf

end Machine

end Parley.Gateway
