import Mathlib.Tactic.SplitIfs
import Parley.Gateway.Machine

/-! What a machine does with each kind of input, by the states that expect it. -/
namespace Parley.Gateway

namespace State

def isOpen (s : State) : Bool := s == .awaitingHello || s.isLive

@[simp] theorem isOpen_of_isLive {s : State} (h : s.isLive = true) : s.isOpen = true := by
  simp [isOpen, h]

theorem ne_fatal_of_isLive {s : State} (h : s.isLive = true) : s ≠ .fatal := by
  rintro rfl
  exact Bool.noConfusion h

theorem ne_fatal_of_isOpen {s : State} (h : s.isOpen = true) : s ≠ .fatal := by
  rintro rfl
  exact Bool.noConfusion h

theorem not_isLive_of_isStopped {s : State} (h : s.isStopped = true) : s.isLive = false := by
  cases s <;> simp_all [isLive, isStopped]

theorem isStopped_cases {s : State} (h : s.isStopped = true) : s = .disconnected ∨ s = .fatal := by
  cases s <;> simp_all [isStopped]

theorem isLive_cases {s : State} (h : s.isLive = true) :
    s = .identifying ∨ s = .resuming ∨ s = .ready := by
  cases s <;> simp_all [isLive]

end State

namespace Machine
variable (m : Machine) (now : Instant) (roll : Nat)

theorem handle_connect :
    m.handle now roll .connect =
      if m.state = .disconnected then ({ m with state := .connecting }, [.openUrl m.url])
      else (m, []) := by
  obtain ⟨state⟩ := m
  cases state <;> rfl

theorem handle_opened :
    m.handle now roll .opened =
      if m.state = .connecting then ({ m with state := .awaitingHello }, []) else (m, []) := by
  obtain ⟨state⟩ := m
  cases state <;> rfl

theorem handle_connectFailed (reason : String) :
    m.handle now roll (.connectFailed reason) =
      if m.state = .connecting then m.connectionLost roll none reason .resume none
      else (m, []) := by
  obtain ⟨state⟩ := m
  cases state <;> rfl

theorem handle_hello (interval : Duration) :
    m.handle now roll (.hello interval) =
      if m.state = .awaitingHello then m.onHello interval else (m, []) := by
  obtain ⟨state⟩ := m
  cases state <;> rfl

theorem handle_dispatch (event : Event) (ready : Option Ready) :
    m.handle now roll (.dispatch event ready) =
      if m.state.isLive then m.onDispatch event ready else (m, []) := by
  obtain ⟨state⟩ := m
  cases state <;> rfl

theorem handle_tick :
    m.handle now roll .tick = if m.state.isLive then m.onTick now roll else (m, []) := by
  obtain ⟨state⟩ := m
  cases state <;> rfl

theorem handle_heartbeatRequested :
    m.handle now roll .heartbeatRequested =
      (m, if m.state.isLive then [.heartbeat m.sequence] else []) := by
  obtain ⟨state⟩ := m
  cases state <;> rfl

theorem handle_heartbeatAck :
    m.handle now roll .heartbeatAck =
      if m.state = .fatal then (m, [])
      else ({ m with heartbeat := (m.heartbeat.acked now).1 }, []) := by
  obtain ⟨state⟩ := m
  cases state <;> rfl

theorem handle_reconnectRequested :
    m.handle now roll .reconnectRequested =
      if m.state.isLive then
        m.connectionLost roll none "server requested reconnect" .resume none
      else (m, []) := by
  obtain ⟨state⟩ := m
  cases state <;> rfl

theorem handle_invalidSession (resumable : Bool) :
    m.handle now roll (.invalidSession resumable) =
      if m.state.isLive then
        m.connectionLost roll none "invalid session"
          (if resumable then .resume else .reidentify) (some (Backoff.invalidSessionWait roll))
      else (m, []) := by
  obtain ⟨state⟩ := m
  cases state <;> rfl

theorem handle_closed (info : CloseInfo) :
    m.handle now roll (.closed info) =
      if m.state.isOpen then
        m.connectionLost roll info.code info.reason (handle.actionOf info) none
      else (m, []) := by
  obtain ⟨state⟩ := m
  cases state <;> rfl

theorem handle_reconnectDue :
    m.handle now roll .reconnectDue =
      if m.state = .reconnecting then
        ({ m with state := .connecting }, [.openUrl m.handshakeUrl])
      else (m, []) := by
  obtain ⟨state⟩ := m
  cases state <;> rfl

theorem handle_shutdown :
    m.handle now roll .shutdown = if m.state = .fatal then (m, []) else m.onShutdown := by
  obtain ⟨state⟩ := m
  cases state <;> rfl

theorem state_onDispatch (event : Event) (ready : Option Ready) (hl : m.state.isLive = true) :
    (m.onDispatch event ready).1.state = .ready := by
  unfold onDispatch
  obtain h | h | h := State.isLive_cases hl <;> cases event.sequence <;> cases ready <;> simp [h]

theorem effects_onDispatch (event : Event) (ready : Option Ready) :
    (m.onDispatch event ready).2 =
      if m.state = .identifying ∨ m.state = .resuming then
        [.connected (m.state == .resuming), .deliver event]
      else [.deliver event] := by
  unfold onDispatch
  cases event.sequence <;> cases ready <;> dsimp only <;> split <;> rfl

def failuresAfterLoss : Nat := if m.state = .ready then m.failures else m.failures + 1

/-- The machine without its connection, before it is known whether it connects again. -/
def unplugged (action : CloseAction) : Machine :=
  { (if action = .reidentify then m.forget else m) with
    heartbeat := m.heartbeat.stop, failures := m.failuresAfterLoss }

def hangUp (action : CloseAction) : List Effect :=
  [.stopHeartbeat, .closeTransport (if action = .resume then resumableClose else normalClose)]

variable (code : Option UInt16) (reason : String) (wait : Option Duration)

theorem connectionLost_fatal :
    m.connectionLost roll code reason .fatal wait =
      enterFatal { m with heartbeat := m.heartbeat.stop } (hangUp .fatal) code
        (match code with
        | some code => .fatalClose code
        | none => .closed) := rfl

theorem connectionLost_of_ne_fatal {action : CloseAction} (h : action ≠ .fatal) :
    m.connectionLost roll code reason action wait =
      if m.maxFailures ≤ m.failuresAfterLoss then
        (m.unplugged action).enterFatal (hangUp action) code (.exhausted m.failuresAfterLoss)
      else
        ({ m.unplugged action with state := .reconnecting },
          hangUp action ++
            [.disconnected ⟨code, reason,
                if (m.unplugged action).canResume then .resume else .reidentify⟩,
              .scheduleReconnect (wait.getD (m.backoff.delay m.failuresAfterLoss roll))]) := by
  obtain ⟨state⟩ := m
  cases action with
  | fatal => exact absurd rfl h
  | resume => cases state <;> rfl
  | reidentify => cases state <;> rfl

/-- A lost connection ends in a plan to connect again, or for good. -/
theorem connectionLost_state (action : CloseAction) :
    (m.connectionLost roll code reason action wait).1.state = .fatal ∨
      (m.connectionLost roll code reason action wait).1.state = .reconnecting := by
  by_cases ha : action = .fatal
  · subst ha
    exact .inl rfl
  · rw [connectionLost_of_ne_fatal m roll code reason wait ha]
    split
    · exact .inl rfl
    · exact .inr rfl

@[simp] theorem connectionLost_ne_disconnected (action : CloseAction) :
    (m.connectionLost roll code reason action wait).1.state ≠ .disconnected := by
  obtain h | h := connectionLost_state m roll code reason wait action <;> simp [h]

end Machine

end Parley.Gateway
