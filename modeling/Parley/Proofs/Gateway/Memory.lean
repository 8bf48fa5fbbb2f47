import Parley.Proofs.Gateway.Transitions

/-! What a machine keeps for resuming is what its history says: the session of the latest READY and
the latest sequence number, as far as nothing has put an end to that session since. -/
namespace Parley.Gateway

structure Turn where
  before : State
  input : Input
  after : State

namespace Turn

def ready? (t : Turn) : Option Ready :=
  match t.input with
  | .dispatch _ ready => if t.before.isLive then ready else none
  | _ => none

def sequence? (t : Turn) : Option UInt64 :=
  match t.input with
  | .dispatch event _ => if t.before.isLive then event.sequence else none
  | _ => none

def endsSession (t : Turn) : Bool :=
  match t.input with
  | .closed info =>
    t.before.isOpen && info.code.any fun code => CloseAction.forCode code != .resume
  | .invalidSession resumable => t.before.isLive && !resumable
  | .shutdown => true
  | _ => false

def goesFatal (t : Turn) : Bool := t.before != .fatal && t.after == .fatal

def acceptsHello (t : Turn) : Bool :=
  match t.input with
  | .hello _ => t.before == .awaitingHello
  | _ => false

end Turn

/-- The first handshake that some turns allow, the latest turn standing first. -/
def handshakeOf (turns : List Turn) : Effect :=
  match turns.findSome? Turn.ready?, turns.findSome? Turn.sequence? with
  | some ready, some sequence => .resume ready.sessionId sequence
  | _, _ => .identify

/-- The turns since the latest one that made the machine forget its session. A hello does so when
the turns before it do not allow to resume. -/
def recent : List Turn → List Turn
  | [] => []
  | t :: earlier =>
    if t.endsSession || t.goesFatal ||
        (t.acceptsHello && handshakeOf (recent earlier) = .identify) then []
    else t :: recent earlier

structure Arrival where
  now : Instant
  roll : Nat
  input : Input

namespace Machine

def record (x : Machine × List Turn) (a : Arrival) : Machine × List Turn :=
  let next := (x.1.handle a.now a.roll a.input).1
  (next, ⟨x.1.state, a.input, next.state⟩ :: x.2)

def watch (m : Machine) (arrivals : List Arrival) : Machine × List Turn :=
  arrivals.foldl record (m, [])

end Machine

structure Memory where
  sessionId : Option String
  sequence : Option UInt64
  resumeUrl : Option String
deriving DecidableEq

namespace Memory

def blank : Memory := ⟨none, none, none⟩

def canResume (y : Memory) : Bool := y.sessionId.isSome && y.sequence.isSome

def note (y : Memory) (t : Turn) : Memory where
  sessionId := (t.ready?.map Ready.sessionId).or y.sessionId
  sequence := t.sequence?.or y.sequence
  resumeUrl := (t.ready?.map Ready.resumeUrl).getD y.resumeUrl

def isLost (y : Memory) (t : Turn) : Bool :=
  t.endsSession || t.goesFatal || (t.acceptsHello && !y.canResume)

def after (y : Memory) (t : Turn) : Memory := if y.isLost t then blank else y.note t

/-- The memory that some turns leave, the latest turn standing first. -/
def ofTurns (turns : List Turn) : Memory where
  sessionId := (turns.findSome? Turn.ready?).map Ready.sessionId
  sequence := turns.findSome? Turn.sequence?
  resumeUrl := (turns.findSome? Turn.ready?).bind Ready.resumeUrl

@[simp] theorem ofTurns_nil : ofTurns [] = blank := rfl

theorem ofTurns_cons (t : Turn) (turns : List Turn) :
    ofTurns (t :: turns) = (ofTurns turns).note t := by
  simp only [ofTurns, note, List.findSome?_cons]
  cases t.ready? <;> cases t.sequence? <;> simp

theorem note_of_no_dispatch {y : Memory} {t : Turn} (hr : t.ready? = none)
    (hs : t.sequence? = none) : y.note t = y := by
  simp [note, hr, hs]

theorem canResume_ofTurns (turns : List Turn) :
    (ofTurns turns).canResume = false ↔ handshakeOf turns = .identify := by
  unfold handshakeOf canResume ofTurns
  cases turns.findSome? Turn.ready? <;> cases turns.findSome? Turn.sequence? <;> simp

theorem ofTurns_recent_cons (t : Turn) (history : List Turn) :
    ofTurns (recent (t :: history)) = (ofTurns (recent history)).after t := by
  have he := canResume_ofTurns (recent history)
  cases hc : (ofTurns (recent history)).canResume <;>
    simp only [recent, after, isLost, hc] at he ⊢ <;> split <;> simp_all [ofTurns_cons]

end Memory

namespace Machine

def memory (m : Machine) : Memory := ⟨m.sessionId, m.sequence, m.resumeUrl⟩

@[simp] theorem memory_forget (m : Machine) : m.forget.memory = .blank := rfl

@[simp] theorem memory_enterFatal (m : Machine) (effects : List Effect) (code : Option UInt16)
    (error : Error) : (m.enterFatal effects code error).1.memory = .blank := rfl

@[simp] theorem state_enterFatal (m : Machine) (effects : List Effect) (code : Option UInt16)
    (error : Error) : (m.enterFatal effects code error).1.state = .fatal := rfl

/-- A session survives the loss of its connection if it may be resumed and attempts are left. -/
theorem memory_connectionLost (m : Machine) (roll : Nat) (code : Option UInt16) (reason : String)
    (action : CloseAction) (wait : Option Duration) :
    (m.connectionLost roll code reason action wait).1.memory =
      if action = .resume ∧ (m.connectionLost roll code reason action wait).1.state ≠ .fatal
      then m.memory else .blank := by
  cases action with
  | fatal => simp [connectionLost_fatal]
  | reidentify =>
    rw [connectionLost_of_ne_fatal m roll code reason wait (by decide)]
    split
    · simp
    · simp [unplugged, memory, forget, Memory.blank]
  | resume =>
    rw [connectionLost_of_ne_fatal m roll code reason wait (by decide)]
    split
    · simp
    · simp [unplugged, memory]

theorem memory_onHello (m : Machine) (interval : Duration) :
    (m.onHello interval).1.memory = if m.memory.canResume then m.memory else .blank := by
  unfold onHello memory Memory.canResume
  cases m.sessionId <;> cases m.sequence <;> rfl

theorem state_onHello (m : Machine) (interval : Duration) :
    (m.onHello interval).1.state ≠ .fatal := by
  unfold onHello
  cases m.sessionId <;> cases m.sequence <;> simp

theorem memory_onDispatch (m : Machine) (event : Event) (ready : Option Ready)
    (hl : m.state.isLive = true) (after : State) :
    (m.onDispatch event ready).1.memory =
      m.memory.note ⟨m.state, .dispatch event ready, after⟩ := by
  obtain ⟨kind, sequence, data⟩ := event
  unfold onDispatch
  cases sequence <;> cases ready <;> dsimp only <;> split <;>
    simp [memory, Memory.note, Turn.ready?, Turn.sequence?, hl]

theorem memory_onShutdown (m : Machine) (hs : m.state.isStopped = true → m.memory = .blank) :
    m.onShutdown.1.memory = .blank := by
  unfold onShutdown
  split
  · next hd => exact hs (by simp [hd, State.isStopped])
  · rfl

end Machine

namespace Memory

/-- A turn that carries nothing to remember keeps the memory unless it puts an end to it. -/
theorem after_of_no_news {y : Memory} {t : Turn} (hr : t.ready? = none) (hs : t.sequence? = none)
    (hh : t.acceptsHello = false) :
    y.after t = if t.endsSession = false ∧ t.goesFatal = false then y else blank := by
  unfold after isLost
  rw [note_of_no_dispatch hr hs, hh]
  cases t.endsSession <;> cases t.goesFatal <;> rfl

/-- An input that changes no state and puts no end to the session leaves the memory alone. -/
theorem after_ignored {y : Memory} {state : State} {input : Input}
    (hr : Turn.ready? ⟨state, input, state⟩ = none)
    (hs : Turn.sequence? ⟨state, input, state⟩ = none)
    (hh : Turn.acceptsHello ⟨state, input, state⟩ = false)
    (he : Turn.endsSession ⟨state, input, state⟩ = false) : y.after ⟨state, input, state⟩ = y := by
  have hf : Turn.goesFatal ⟨state, input, state⟩ = false := by
    cases state <;> rfl
  rw [after_of_no_news hr hs hh, if_pos ⟨he, hf⟩]

theorem after_eq_blank {y : Memory} {t : Turn} (h : y.isLost t = true) : y.after t = blank := by
  simp [after, h]

theorem blank_after {t : Turn} (h : t.before.isLive = false) : blank.after t = blank := by
  have hr : t.ready? = none := by unfold Turn.ready?; split <;> simp [h]
  have hs : t.sequence? = none := by unfold Turn.sequence?; split <;> simp [h]
  unfold after
  rw [note_of_no_dispatch hr hs, ite_self]

end Memory

namespace Machine
variable {m : Machine} {now : Instant} {roll : Nat}

theorem memory_connectionLost_after {input : Input} {code : Option UInt16} {reason : String}
    {action : CloseAction} {wait : Option Duration} (hf : m.state ≠ .fatal)
    (hd : ∀ after, Turn.ready? ⟨m.state, input, after⟩ = none ∧
      Turn.sequence? ⟨m.state, input, after⟩ = none ∧
      Turn.acceptsHello ⟨m.state, input, after⟩ = false)
    (ha : ∀ after, Turn.endsSession ⟨m.state, input, after⟩ = false ↔ action = .resume) :
    (m.connectionLost roll code reason action wait).1.memory =
      m.memory.after
        ⟨m.state, input, (m.connectionLost roll code reason action wait).1.state⟩ := by
  obtain ⟨hr, hs, hh⟩ := hd (m.connectionLost roll code reason action wait).1.state
  rw [Memory.after_of_no_news hr hs hh, memory_connectionLost]
  simp only [ha]
  simp [Turn.goesFatal, hf]

/-- One input changes the memory as its turn says. -/
theorem memory_handle (now : Instant) (roll : Nat) (input : Input)
    (hs : m.state.isStopped = true → m.memory = .blank) :
    (m.handle now roll input).1.memory =
      m.memory.after ⟨m.state, input, (m.handle now roll input).1.state⟩ := by
  cases input with
  | connect =>
    rw [handle_connect, Memory.after_of_no_news rfl rfl rfl]
    split <;> simp [Turn.endsSession, Turn.goesFatal, memory]
  | opened =>
    rw [handle_opened, Memory.after_of_no_news rfl rfl rfl]
    split <;> simp [Turn.endsSession, Turn.goesFatal, memory]
  | connectFailed reason =>
    rw [handle_connectFailed]
    split
    · next hc =>
      refine memory_connectionLost_after (by simp [hc]) (fun _ => ⟨rfl, rfl, rfl⟩) fun _ => ?_
      simp [Turn.endsSession]
    · exact (Memory.after_ignored rfl rfl rfl rfl).symm
  | hello interval =>
    rw [handle_hello]
    split
    · next hw =>
      have hn := state_onHello m interval
      rw [memory_onHello]
      cases hc : m.memory.canResume <;>
        simp [Memory.after, Memory.isLost, Memory.note, Turn.endsSession, Turn.goesFatal,
          Turn.acceptsHello, Turn.ready?, Turn.sequence?, hw, hn, hc]
    · next hw =>
      have hh : Turn.acceptsHello ⟨m.state, .hello interval, m.state⟩ = false := by
        simp [Turn.acceptsHello, hw]
      exact (Memory.after_ignored rfl rfl hh rfl).symm
  | dispatch event ready =>
    rw [handle_dispatch]
    split
    · next hl =>
      rw [memory_onDispatch m event ready hl .ready]
      simp [Memory.after, Memory.isLost, Turn.endsSession, Turn.goesFatal, Turn.acceptsHello,
        state_onDispatch m event ready hl]
    · next hl =>
      have hr : Turn.ready? ⟨m.state, .dispatch event ready, m.state⟩ = none := by
        simp [Turn.ready?, hl]
      have hn : Turn.sequence? ⟨m.state, .dispatch event ready, m.state⟩ = none := by
        simp [Turn.sequence?, hl]
      exact (Memory.after_ignored hr hn rfl rfl).symm
  | tick =>
    rw [handle_tick]
    split
    · next hl =>
      unfold onTick
      split
      · refine memory_connectionLost_after (State.ne_fatal_of_isLive hl) (fun _ => ⟨rfl, rfl, rfl⟩)
          fun _ => ?_
        simp [Turn.endsSession]
      · rw [Memory.after_of_no_news rfl rfl rfl]
        simp [Turn.endsSession, Turn.goesFatal, memory]
    · exact (Memory.after_ignored rfl rfl rfl rfl).symm
  | heartbeatRequested =>
    rw [handle_heartbeatRequested]
    exact (Memory.after_ignored rfl rfl rfl rfl).symm
  | heartbeatAck =>
    rw [handle_heartbeatAck, Memory.after_of_no_news rfl rfl rfl]
    split <;> simp [Turn.endsSession, Turn.goesFatal, memory]
  | reconnectRequested =>
    rw [handle_reconnectRequested]
    split
    · next hl =>
      refine memory_connectionLost_after (State.ne_fatal_of_isLive hl) (fun _ => ⟨rfl, rfl, rfl⟩)
        fun _ => ?_
      simp [Turn.endsSession]
    · exact (Memory.after_ignored rfl rfl rfl rfl).symm
  | invalidSession resumable =>
    rw [handle_invalidSession]
    split
    · next hl =>
      refine memory_connectionLost_after (State.ne_fatal_of_isLive hl) (fun _ => ⟨rfl, rfl, rfl⟩)
        fun _ => ?_
      cases resumable <;> simp [Turn.endsSession, hl]
    · next hl =>
      have he : Turn.endsSession ⟨m.state, .invalidSession resumable, m.state⟩ = false := by
        simp [Turn.endsSession, hl]
      exact (Memory.after_ignored rfl rfl rfl he).symm
  | closed info =>
    rw [handle_closed]
    split
    · next ho =>
      refine memory_connectionLost_after (State.ne_fatal_of_isOpen ho) (fun _ => ⟨rfl, rfl, rfl⟩)
        fun _ => ?_
      obtain ⟨code, reason⟩ := info
      cases code <;> simp [Turn.endsSession, handle.actionOf, ho]
    · next ho =>
      have he : Turn.endsSession ⟨m.state, .closed info, m.state⟩ = false := by
        simp [Turn.endsSession, ho]
      exact (Memory.after_ignored rfl rfl rfl he).symm
  | reconnectDue =>
    rw [handle_reconnectDue, Memory.after_of_no_news rfl rfl rfl]
    split <;> simp [Turn.endsSession, Turn.goesFatal, memory]
  | shutdown =>
    rw [handle_shutdown, Memory.after_of_no_news rfl rfl rfl]
    simp only [Turn.endsSession]
    split
    · next hf => exact hs (by simp [hf, State.isStopped])
    · exact memory_onShutdown m hs

/-- Only a shutdown disconnects a machine. -/
theorem eq_shutdown_of_disconnected {input : Input} (hb : m.state ≠ .disconnected)
    (ha : (m.handle now roll input).1.state = .disconnected) : input = .shutdown := by
  cases input with
  | shutdown => rfl
  | dispatch event ready =>
    rw [handle_dispatch] at ha
    split at ha
    · next hl => simp [state_onDispatch m event ready hl] at ha
    · exact absurd ha hb
  | hello interval =>
    rw [handle_hello] at ha
    split at ha
    · revert ha
      unfold onHello
      cases m.sessionId <;> cases m.sequence <;> simp
    · exact absurd ha hb
  | tick =>
    rw [handle_tick] at ha
    revert ha
    unfold onTick
    split_ifs <;> simp [hb]
  | heartbeatRequested =>
    rw [handle_heartbeatRequested] at ha
    exact absurd ha hb
  | _ =>
    simp only [handle_connect, handle_opened, handle_connectFailed, handle_heartbeatAck,
      handle_reconnectRequested, handle_invalidSession, handle_closed, handle_reconnectDue] at ha
    revert ha
    split_ifs <;> simp [hb]

end Machine

/-- A machine remembers its history, and nothing once it has stopped. -/
structure Remembers (m : Machine) (history : List Turn) : Prop where
  memory : m.memory = .ofTurns (recent history)
  stopped : m.state.isStopped = true → m.memory = .blank

namespace Remembers
variable {m : Machine} {history : List Turn}

theorem create (url : String) (backoff : Backoff) (maxFailures : Nat) :
    Remembers (.create url backoff maxFailures) [] :=
  ⟨rfl, fun _ => rfl⟩

theorem handle (h : Remembers m history) (now : Instant) (roll : Nat) (input : Input) :
    Remembers (m.handle now roll input).1
      (⟨m.state, input, (m.handle now roll input).1.state⟩ :: history) := by
  have hm := Machine.memory_handle now roll input h.stopped
  refine ⟨by rw [Memory.ofTurns_recent_cons, hm, h.memory], fun hs => ?_⟩
  rw [hm]
  by_cases hb : m.state.isStopped = true
  · rw [h.stopped hb, Memory.blank_after (State.not_isLive_of_isStopped hb)]
  · have hf : m.state ≠ .fatal := fun hf => hb (by rw [hf]; rfl)
    have hd : m.state ≠ .disconnected := fun hd => hb (by rw [hd]; rfl)
    obtain ha | ha := State.isStopped_cases hs
    · have hi := Machine.eq_shutdown_of_disconnected hd ha
      exact Memory.after_eq_blank (by simp [Memory.isLost, Turn.endsSession, hi])
    · exact Memory.after_eq_blank (by simp [Memory.isLost, Turn.goesFatal, hf, ha])

theorem foldl_record (h : Remembers m history) (arrivals : List Arrival) :
    Remembers (arrivals.foldl Machine.record (m, history)).1
      (arrivals.foldl Machine.record (m, history)).2 := by
  induction arrivals generalizing m history with
  | nil => exact h
  | cons a arrivals ih => exact ih (h.handle a.now a.roll a.input)

theorem watch (url : String) (backoff : Backoff) (maxFailures : Nat) (arrivals : List Arrival) :
    Remembers ((Machine.create url backoff maxFailures).watch arrivals).1
      ((Machine.create url backoff maxFailures).watch arrivals).2 :=
  (create url backoff maxFailures).foldl_record arrivals

end Remembers

def Effect.isHandshake : Effect → Bool
  | .identify | .resume .. => true
  | _ => false

namespace Machine

theorem onHello_of_remembers {m : Machine} {history : List Turn} (h : Remembers m history)
    (interval : Duration) :
    (m.onHello interval).2 = [.startHeartbeat interval, handshakeOf (recent history)] ∧
      (handshakeOf (recent history) = .identify →
        (m.onHello interval).1.sessionId = none ∧ (m.onHello interval).1.sequence = none) := by
  have hm := h.memory
  simp only [memory, Memory.ofTurns, Memory.mk.injEq] at hm
  unfold onHello handshakeOf
  rw [hm.1, hm.2.1]
  cases (recent history).findSome? Turn.ready? <;>
    cases (recent history).findSome? Turn.sequence? <;> simp [forget]

/-- The first frame of a connection takes up the session of the latest READY after the latest
sequence number, if both have come in since a session was last given up; and dispatches that are
not expected are not taken for either. -/
theorem hello_resumes_remembered_session (url : String) (backoff : Backoff) (maxFailures : Nat)
    (arrivals : List Arrival) (now : Instant) (roll : Nat) :
    let (m, history) := (create url backoff maxFailures).watch arrivals
    (m.state = .awaitingHello → ∀ interval,
      let (next, effects) := m.handle now roll (.hello interval)
      effects.filter Effect.isHandshake = [handshakeOf (recent history)] ∧
        (handshakeOf (recent history) = .identify →
          next.sessionId = none ∧ next.sequence = none)) ∧
    (m.state.isLive = false → ∀ event ready,
      let next := (m.handle now roll (.dispatch event ready)).1
      next.sessionId = m.sessionId ∧ next.sequence = m.sequence) := by
  dsimp only
  have h := Remembers.watch url backoff maxFailures arrivals
  refine ⟨fun hw interval => ?_, fun hl event ready => ?_⟩
  · obtain ⟨he, hn⟩ := onHello_of_remembers h interval
    rw [handle_hello, if_pos hw, he]
    refine ⟨?_, hn⟩
    unfold handshakeOf
    split <;> rfl
  · rw [handle_dispatch, hl]
    exact ⟨rfl, rfl⟩

def droppedOnce : List Arrival :=
  [⟨⟨0⟩, 0, .connect⟩, ⟨⟨1⟩, 0, .opened⟩, ⟨⟨2⟩, 0, .hello (.ofSecs 40)⟩,
    ⟨⟨3⟩, 0, .dispatch ⟨"READY", some 1, .null⟩ (some ⟨some 10, "s1", none, none⟩)⟩,
    ⟨⟨4⟩, 0, .dispatch ⟨"MESSAGE_CREATE", some 7, .null⟩ none⟩,
    ⟨⟨5⟩, 0, .closed ⟨some 4000, "bye"⟩⟩, ⟨⟨6⟩, 0, .reconnectDue⟩, ⟨⟨7⟩, 0, .opened⟩]

theorem droppedOnce_resumes :
    let m := ((create "wss://gateway.test" .standard 3).watch droppedOnce).1
    m.state = .awaitingHello ∧ m.state.isLive = false ∧
      (m.handle ⟨8⟩ 0 (.hello (.ofSecs 40))).2.filter Effect.isHandshake = [.resume "s1" 7] ∧
      (m.handle ⟨8⟩ 0 (.dispatch ⟨"READY", some 9, .null⟩ none)).1.sequence = some 7 := by
  have h := hello_resumes_remembered_session "wss://gateway.test" .standard 3 droppedOnce ⟨8⟩ 0
  exact ⟨rfl, rfl, (h.1 rfl (.ofSecs 40)).1, (h.2 rfl ⟨"READY", some 9, .null⟩ none).2⟩

end Machine

end Parley.Gateway
