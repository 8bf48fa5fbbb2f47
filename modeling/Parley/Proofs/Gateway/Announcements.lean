import Parley.Proofs.Gateway.HeartbeatTimeout
import Parley.Proofs.Gateway.StateGraph

/-! What a machine announces when it loses its connection is what it does next: the server that it
connects to again, and the handshake by which it greets it. The announcement, the address and the
handshake are worked out at different times; they agree since nothing that comes in between changes
what the machine keeps for resuming. -/
namespace Parley.Gateway

namespace Effect

def isOpening : Effect → Bool
  | openUrl _ => true
  | _ => false

end Effect

def Input.isHello : Input → Bool
  | hello _ => true
  | _ => false

/-- The input for which a machine without a greeted connection waits. -/
def State.awaits : State → Input → Bool
  | reconnecting, .reconnectDue => true
  | connecting, .opened => true
  | awaitingHello, .hello _ => true
  | _, _ => false

def State.isWaiting : State → Bool
  | reconnecting | connecting | awaitingHello => true
  | _ => false

def ComesDue (later : List Arrival) : Bool := later.any fun a => a.input = .reconnectDue

/-- The next attempt opens a connection, and the server says hello on it. -/
def IsGreeted (later : List Arrival) : Bool :=
  ((later.dropWhile fun a => a.input ≠ .reconnectDue).dropWhile fun a => a.input ≠ .opened).any
    fun a => a.input.isHello

/-- Among some effects, `opening` is the one that opens a connection and `handshake` the one that
greets a server, as far as what came in gave occasion for them. -/
structure Carries (effects : List Effect) (later : List Arrival) (opening handshake : Effect) :
    Prop where
  opens : effects.filter Effect.isOpening = if ComesDue later then [opening] else []
  greets : effects.filter Effect.isHandshake = if IsGreeted later then [handshake] else []

namespace Memory

def handshake (y : Memory) : Effect :=
  match y.sessionId, y.sequence with
  | some id, some sequence => .resume id sequence
  | _, _ => .identify

def address (y : Memory) (configured : String) : String :=
  match y.resumeUrl with
  | some url => if y.canResume then url else configured
  | none => configured

theorem plan_of_not_canResume {y : Memory} (h : y.canResume = false) (configured : String) :
    y.address configured = configured ∧ y.handshake = .identify := by
  unfold address handshake
  rw [h]
  obtain ⟨id, sequence, url⟩ := y
  cases id <;> cases sequence <;> cases url <;> first | exact ⟨rfl, rfl⟩ | simp [canResume] at h

theorem plan_of_canResume (id : String) (sequence : UInt64) (url : Option String)
    (configured : String) :
    address ⟨some id, some sequence, url⟩ configured = url.getD configured ∧
      handshake ⟨some id, some sequence, url⟩ = .resume id sequence := by
  cases url <;> exact ⟨rfl, rfl⟩

theorem isHandshake_handshake (y : Memory) :
    y.handshake.isHandshake = true ∧ y.handshake.isOpening = false := by
  unfold handshake
  split <;> exact ⟨rfl, rfl⟩

end Memory

namespace Machine

def asked (m : Machine) : List Arrival → List Effect
  | [] => []
  | a :: later =>
    (m.handle a.now a.roll a.input).2 ++ (m.handle a.now a.roll a.input).1.asked later

variable {m : Machine} {now : Instant} {roll : Nat} {i : Input} {later : List Arrival}

theorem effects_onHello (m : Machine) (interval : Duration) :
    (m.onHello interval).2 = [.startHeartbeat interval, m.memory.handshake] := by
  unfold onHello Memory.handshake memory
  cases m.sessionId <;> cases m.sequence <;> rfl

theorem isLive_onHello (m : Machine) (interval : Duration) :
    (m.onHello interval).1.state.isLive = true := by
  unfold onHello
  cases m.sessionId <;> cases m.sequence <;> rfl

theorem handshakeUrl_eq (m : Machine) : m.handshakeUrl = m.memory.address m.url := rfl

/-- A loss is announced once. If another connection follows, the announcement says whether the
session can be resumed. -/
theorem connectionLost_announces (m : Machine) (roll : Nat) (code : Option UInt16)
    (reason : String) (action : CloseAction) (wait : Option Duration) :
    ∃ cause last,
      (m.connectionLost roll code reason action wait).2 =
        hangUp action ++ [.disconnected cause, last] ∧
      (∀ c, .disconnected c ≠ last) ∧
      (cause.next.isFinal = false →
        (m.connectionLost roll code reason action wait).1.state = .reconnecting ∧
          cause.next =
            if (m.connectionLost roll code reason action wait).1.canResume then .resume
            else .reidentify) := by
  by_cases ha : action = .fatal
  · subst ha
    rw [connectionLost_fatal]
    refine ⟨_, _, rfl, by simp, ?_⟩
    simp [NextStep.isFinal]
  · rw [connectionLost_of_ne_fatal m roll code reason wait ha]
    split
    · refine ⟨_, _, rfl, by simp, ?_⟩
      simp [NextStep.isFinal]
    · exact ⟨_, _, rfl, by simp, fun _ => ⟨rfl, rfl⟩⟩

theorem exists_disconnected (m : Machine) (roll : Nat) (code : Option UInt16) (reason : String)
    (action : CloseAction) (wait : Option Duration) :
    ∃ cause, .disconnected cause ∈ (m.connectionLost roll code reason action wait).2 := by
  obtain ⟨cause, last, he, -⟩ := connectionLost_announces m roll code reason action wait
  exact ⟨cause, by simp [he]⟩

theorem next_connectionLost {code : Option UInt16} {reason : String} {action : CloseAction}
    {wait : Option Duration} {cause : CloseCause}
    (h : .disconnected cause ∈ (m.connectionLost roll code reason action wait).2)
    (hf : cause.next.isFinal = false) :
    (m.connectionLost roll code reason action wait).1.state = .reconnecting ∧
      cause.next =
        if (m.connectionLost roll code reason action wait).1.canResume then .resume
        else .reidentify := by
  obtain ⟨c, last, he, hl, hn⟩ := connectionLost_announces m roll code reason action wait
  rw [he] at h
  obtain rfl : cause = c := by simpa [hangUp, hl cause] using h
  exact hn hf

/-- Where a machine announces that another connection follows, it plans one, and it says whether it
can resume. -/
theorem next_handle {cause : CloseCause} (h : .disconnected cause ∈ (m.handle now roll i).2)
    (hf : cause.next.isFinal = false) :
    (m.handle now roll i).1.state = .reconnecting ∧
      cause.next = if (m.handle now roll i).1.canResume then .resume else .reidentify := by
  cases i with
  | connect =>
    rw [handle_connect] at h
    split at h <;> simp at h
  | opened =>
    rw [handle_opened] at h
    split at h <;> simp at h
  | connectFailed reason =>
    rw [handle_connectFailed] at h ⊢
    split at h
    · next hc => rw [if_pos hc]; exact next_connectionLost h hf
    · simp at h
  | hello interval =>
    rw [handle_hello] at h
    split at h
    · rw [effects_onHello] at h
      unfold Memory.handshake at h
      split at h <;> simp at h
    · simp at h
  | dispatch event ready =>
    rw [handle_dispatch] at h
    split at h
    · rw [effects_onDispatch] at h
      split at h <;> simp at h
    · simp at h
  | tick =>
    rw [handle_tick] at h ⊢
    split at h
    · next hl =>
      rw [if_pos hl]
      unfold onTick at h ⊢
      split at h
      · next ha => rw [if_pos ha]; exact next_connectionLost h hf
      · simp at h
    · simp at h
  | heartbeatRequested =>
    rw [handle_heartbeatRequested] at h
    dsimp only at h
    split at h <;> simp at h
  | heartbeatAck =>
    rw [handle_heartbeatAck] at h
    split at h <;> simp at h
  | reconnectRequested =>
    rw [handle_reconnectRequested] at h ⊢
    split at h
    · next hl => rw [if_pos hl]; exact next_connectionLost h hf
    · simp at h
  | invalidSession resumable =>
    rw [handle_invalidSession] at h ⊢
    split at h
    · next hl => rw [if_pos hl]; exact next_connectionLost h hf
    · simp at h
  | closed info =>
    rw [handle_closed] at h ⊢
    split at h
    · next ho => rw [if_pos ho]; exact next_connectionLost h hf
    · simp at h
  | reconnectDue =>
    rw [handle_reconnectDue] at h
    split at h <;> simp at h
  | shutdown =>
    rw [handle_shutdown] at h
    split at h
    · simp at h
    · unfold onShutdown at h
      split at h
      · simp at h
      · obtain rfl : cause = _ := by simpa using h
        simp [NextStep.isFinal] at hf

/-- A machine with the same plans; the clock of its heartbeats may differ. -/
def Alike (m n : Machine) : Prop := n.state = m.state ∧ n.url = m.url ∧ n.memory = m.memory

/-- A machine that waits takes no notice of anything else, unless it is told that its attempt has
failed or that it shall end. -/
theorem handle_waiting (hw : m.state.isWaiting = true) (hi : m.state.awaits i = false)
    (hq : ∀ cause, .disconnected cause ∉ (m.handle now roll i).2) :
    m.Alike (m.handle now roll i).1 ∧ (m.handle now roll i).2 = [] := by
  have hlive : m.state.isLive = false := by
    cases hs : m.state <;> simp_all [State.isWaiting, State.isLive]
  have hkept : m.Alike m ∧ ([] : List Effect) = [] := ⟨⟨rfl, rfl, rfl⟩, rfl⟩
  cases i with
  | connect =>
    rw [handle_connect, if_neg (by intro hd; simp [hd, State.isWaiting] at hw)]
    exact hkept
  | opened =>
    rw [handle_opened, if_neg (by intro hc; simp [hc, State.awaits] at hi)]
    exact hkept
  | connectFailed reason =>
    rw [handle_connectFailed] at hq ⊢
    split at hq
    · obtain ⟨cause, hm⟩ := exists_disconnected m roll none reason .resume none
      exact absurd hm (hq cause)
    · next hc => rw [if_neg hc]; exact hkept
  | hello interval =>
    rw [handle_hello, if_neg (by intro ha; simp [ha, State.awaits] at hi)]
    exact hkept
  | closed info =>
    rw [handle_closed] at hq ⊢
    split at hq
    · obtain ⟨cause, hm⟩ :=
        exists_disconnected m roll info.code info.reason (handle.actionOf info) none
      exact absurd hm (hq cause)
    · next ho => rw [if_neg ho]; exact hkept
  | reconnectDue =>
    rw [handle_reconnectDue, if_neg (by intro hr; simp [hr, State.awaits] at hi)]
    exact hkept
  | heartbeatAck =>
    rw [handle_heartbeatAck]
    split
    · exact hkept
    · exact ⟨⟨rfl, rfl, rfl⟩, rfl⟩
  | shutdown =>
    have hd : m.state ≠ .disconnected := by intro hd; simp [hd, State.isWaiting] at hw
    have hf : m.state ≠ .fatal := by intro hf; simp [hf, State.isWaiting] at hw
    simp [handle_shutdown, onShutdown, hd, hf] at hq
  | dispatch event ready => simpa [handle_dispatch, hlive] using hkept
  | tick => simpa [handle_tick, hlive] using hkept
  | heartbeatRequested => simpa [handle_heartbeatRequested, hlive] using hkept
  | reconnectRequested => simpa [handle_reconnectRequested, hlive] using hkept
  | invalidSession resumable => simpa [handle_invalidSession, hlive] using hkept

/-- What comes in before the input that a machine waits for might as well not have come. -/
theorem asked_waiting (hw : m.state.isWaiting = true)
    (hq : ∀ cause, .disconnected cause ∉ m.asked later) :
    (∀ b ∈ later, m.state.awaits b.input = false) ∧ m.asked later = [] ∨
      ∃ n before a rest, m.Alike n ∧ later = before ++ a :: rest ∧
        (∀ b ∈ before, m.state.awaits b.input = false) ∧ m.state.awaits a.input = true ∧
        m.asked later = n.asked (a :: rest) := by
  induction later generalizing m with
  | nil => exact .inl ⟨fun b hb => absurd hb List.not_mem_nil, rfl⟩
  | cons a later ih =>
    -- What is not waited for leaves a machine alike, so the rest finds the same state and memory.
    cases ha : m.state.awaits a.input with
    | true =>
      exact .inr ⟨m, [], a, later, ⟨rfl, rfl, rfl⟩, rfl, fun b hb => absurd hb List.not_mem_nil,
        ha, rfl⟩
    | false =>
      simp only [asked, List.mem_append, not_or] at hq
      have hstep (cause : CloseCause) :
          .disconnected cause ∉ (m.handle a.now a.roll a.input).2 := (hq cause).1
      obtain ⟨⟨hs, hu, hm⟩, he⟩ := handle_waiting hw ha hstep
      rw [asked, he, List.nil_append]
      obtain ⟨hn, hnone⟩ | ⟨n, before, b, rest, ⟨hs', hu', hm'⟩, hl, hn, hb, hasked⟩ :=
        ih (by rw [hs]; exact hw) fun cause => (hq cause).2
      · refine .inl ⟨?_, hnone⟩
        rw [hs] at hn
        simpa [ha] using hn
      · rw [hs] at hn hb
        refine .inr ⟨n, a :: before, b, rest, ⟨hs'.trans hs, hu'.trans hu, hm'.trans hm⟩,
          by rw [hl]; rfl, ?_, hb, hasked⟩
        simpa [ha] using hn

/-- On a connection that has been greeted nothing is opened and nobody is greeted again. -/
theorem asked_live (hl : m.state.isLive = true)
    (hq : ∀ cause, .disconnected cause ∉ m.asked later) :
    (m.asked later).filter Effect.isOpening = [] ∧
      (m.asked later).filter Effect.isHandshake = [] := by
  induction later generalizing m with
  | nil => exact ⟨rfl, rfl⟩
  | cons a later ih =>
    simp only [asked, List.mem_append, not_or] at hq
    -- A transition that opens or greets starts before the hello, and one that leaves the live
    -- states is a loss or the end, which are announced.
    have hnow : (m.handle a.now a.roll a.input).1.state.isLive = true ∧
        (m.handle a.now a.roll a.input).2.filter Effect.isOpening = [] ∧
        (m.handle a.now a.roll a.input).2.filter Effect.isHandshake = [] := by
      have ht := m.transition a.now a.roll a.input
      have hc := fun cause => (hq cause).1
      revert ht hc hl
      generalize m.state = s
      generalize (m.handle a.now a.roll a.input).1.state = s'
      generalize (m.handle a.now a.roll a.input).2 = effects
      generalize a.input = i
      intro hl ht hc
      cases ht with
      | stay hr => exact ⟨hl, rfl, rfl⟩
      | beat sequence hs hi => exact ⟨hl, rfl, rfl⟩
      | connected event ready hs => exact ⟨rfl, rfl, rfl⟩
      | event event ready => exact ⟨rfl, rfl, rfl⟩
      | lose _ _ _ _ => simp at hc
      | fail _ _ _ _ => simp at hc
      | shutdown _ _ _ => simp at hc
      | _ => simp [State.isLive] at hl
    obtain ⟨hlive, hopen, hshake⟩ := hnow
    obtain ⟨ho, hs⟩ := ih hlive fun cause => (hq cause).2
    simp [asked, hopen, hshake, ho, hs]

theorem State.awaits_awaitingHello (i : Input) : State.awaitingHello.awaits i = i.isHello := by
  cases i <;> rfl

theorem State.awaits_connecting (i : Input) :
    State.connecting.awaits i = decide (i = .opened) := by
  cases i <;> rfl

theorem State.awaits_reconnecting (i : Input) :
    State.reconnecting.awaits i = decide (i = .reconnectDue) := by
  cases i <;> rfl

/-- The first hello on a connection calls for the handshake. -/
theorem asked_awaitingHello (hs : m.state = .awaitingHello)
    (hq : ∀ cause, .disconnected cause ∉ m.asked later) :
    (m.asked later).filter Effect.isOpening = [] ∧
      (m.asked later).filter Effect.isHandshake =
        if later.any fun a => a.input.isHello then [m.memory.handshake] else [] := by
  have hwait := asked_waiting (by rw [hs]; rfl) hq
  simp only [hs, State.awaits_awaitingHello] at hwait
  obtain ⟨hn, he⟩ | ⟨n, before, a, rest, ⟨hstate, -, hm⟩, rfl, hn, ha, he⟩ := hwait
  · have hnone : (later.any fun a => a.input.isHello) = false := by simpa using hn
    rw [he, hnone]
    exact ⟨rfl, rfl⟩
  · obtain ⟨interval, hi⟩ : ∃ interval, a.input = .hello interval := by
      cases hi : a.input with
      | hello interval => exact ⟨interval, rfl⟩
      | _ => simp [hi, Input.isHello] at ha
    rw [he, asked, hi, handle_hello, if_pos (hstate.trans hs), effects_onHello, hm] at hq ⊢
    have hrest (cause : CloseCause) : .disconnected cause ∉ (n.onHello interval).1.asked rest :=
      fun hc => hq cause (List.mem_append_right _ hc)
    obtain ⟨ho, hg⟩ := asked_live (isLive_onHello n interval) hrest
    obtain ⟨hshake, hopen⟩ := m.memory.isHandshake_handshake
    have hbeat : (Effect.startHeartbeat interval).isOpening = false ∧
        (Effect.startHeartbeat interval).isHandshake = false := ⟨rfl, rfl⟩
    rw [List.filter_append, List.filter_append, ho, hg]
    simp [hshake, hopen, hbeat, ha]

/-- Nothing is asked for until the connection is open and the server says hello. -/
theorem asked_connecting (hs : m.state = .connecting)
    (hq : ∀ cause, .disconnected cause ∉ m.asked later) :
    (m.asked later).filter Effect.isOpening = [] ∧
      (m.asked later).filter Effect.isHandshake =
        if (later.dropWhile fun a => a.input ≠ .opened).any fun a => a.input.isHello then
          [m.memory.handshake]
        else [] := by
  have hwait := asked_waiting (by rw [hs]; rfl) hq
  simp only [hs, State.awaits_connecting] at hwait
  obtain ⟨hn, he⟩ | ⟨n, before, a, rest, ⟨hstate, -, hm⟩, rfl, hn, ha, he⟩ := hwait
  · have hnone : (later.dropWhile fun a => a.input ≠ .opened) = [] := by
      rw [← List.append_nil later, List.dropWhile_append_of_pos (by simpa using hn)]
      rfl
    rw [he, hnone]
    exact ⟨rfl, rfl⟩
  · have hi : a.input = .opened := by simpa using ha
    rw [List.dropWhile_append_of_pos (by simpa using hn),
      List.dropWhile_cons_of_neg (by simp [hi])]
    rw [he, asked, hi, handle_opened, if_pos (hstate.trans hs), List.nil_append] at hq ⊢
    have hmemory : ({ n with state := .awaitingHello } : Machine).memory = m.memory := hm
    obtain ⟨ho, hg⟩ := asked_awaitingHello rfl hq
    rw [hmemory] at hg
    exact ⟨ho, by simp [hg, hi, Input.isHello]⟩

/-- From a loss on, a machine opens the one connection and answers the one hello for which it still
has the memory. -/
theorem asked_reconnecting (hs : m.state = .reconnecting)
    (hq : ∀ cause, .disconnected cause ∉ m.asked later) :
    Carries (m.asked later) later (.openUrl (m.memory.address m.url)) m.memory.handshake := by
  have hwait := asked_waiting (by rw [hs]; rfl) hq
  simp only [hs, State.awaits_reconnecting] at hwait
  obtain ⟨hn, he⟩ | ⟨n, before, a, rest, ⟨hstate, hu, hm⟩, rfl, hn, ha, he⟩ := hwait
  · have hnone : ComesDue later = false := by simpa [ComesDue] using hn
    have hdrop : (later.dropWhile fun a => a.input ≠ .reconnectDue) = [] := by
      rw [← List.append_nil later, List.dropWhile_append_of_pos (by simpa using hn)]
      rfl
    rw [he]
    exact ⟨by rw [hnone]; rfl, by rw [IsGreeted, hdrop]; rfl⟩
  · have hi : a.input = .reconnectDue := by simpa using ha
    have hdue : ComesDue (before ++ a :: rest) = true := by simp [ComesDue, hi]
    have hgreeted : IsGreeted (before ++ a :: rest) =
        (rest.dropWhile fun a => a.input ≠ .opened).any fun a => a.input.isHello := by
      unfold IsGreeted
      rw [List.dropWhile_append_of_pos (by simpa using hn),
        List.dropWhile_cons_of_neg (by simp [hi]), List.dropWhile_cons_of_pos (by simp [hi])]
    have hurl : n.handshakeUrl = m.memory.address m.url := by rw [handshakeUrl_eq, hu, hm]
    have hmemory : ({ n with state := .connecting } : Machine).memory = m.memory := hm
    rw [he, asked, hi, handle_reconnectDue, if_pos (hstate.trans hs), hurl] at hq ⊢
    have hrest (cause : CloseCause) :
        .disconnected cause ∉ asked { n with state := .connecting } rest :=
      fun hc => hq cause (List.mem_append_right _ hc)
    obtain ⟨ho, hg⟩ := asked_connecting rfl hrest
    rw [hmemory] at hg
    refine ⟨?_, ?_⟩
    · rw [List.filter_append, ho, hdue]
      rfl
    · rw [List.filter_append, hg, hgreeted]
      rfl

theorem url_connectionLost (m : Machine) (roll : Nat) (code : Option UInt16) (reason : String)
    (action : CloseAction) (wait : Option Duration) :
    (m.connectionLost roll code reason action wait).1.url = m.url := by
  have hunplugged : (m.unplugged action).url = m.url := by
    unfold unplugged
    split <;> rfl
  by_cases ha : action = .fatal
  · subst ha
    rfl
  · rw [connectionLost_of_ne_fatal m roll code reason wait ha]
    split
    · exact hunplugged
    · exact hunplugged

theorem url_onHello (m : Machine) (interval : Duration) : (m.onHello interval).1.url = m.url := by
  unfold onHello
  cases m.sessionId <;> cases m.sequence <;> rfl

theorem url_onDispatch (m : Machine) (event : Event) (ready : Option Ready) :
    (m.onDispatch event ready).1.url = m.url := by
  unfold onDispatch
  cases event.sequence <;> cases ready <;> dsimp only <;> split <;> rfl

theorem url_handle (m : Machine) (now : Instant) (roll : Nat) (i : Input) :
    (m.handle now roll i).1.url = m.url := by
  cases i with
  | hello interval =>
    rw [handle_hello]
    split
    · exact url_onHello m interval
    · rfl
  | dispatch event ready =>
    rw [handle_dispatch]
    split
    · exact url_onDispatch m event ready
    · rfl
  | tick =>
    rw [handle_tick]
    unfold onTick
    split
    · split
      · exact url_connectionLost ..
      · rfl
    · rfl
  | heartbeatRequested => rw [handle_heartbeatRequested]
  | shutdown =>
    rw [handle_shutdown]
    unfold onShutdown
    split
    · rfl
    · split <;> rfl
  | _ =>
    simp only [handle_connect, handle_opened, handle_connectFailed, handle_heartbeatAck,
      handle_reconnectRequested, handle_invalidSession, handle_closed, handle_reconnectDue]
    split
    · first | rfl | exact url_connectionLost ..
    · rfl

end Machine

theorem recent_prefix_turns (turns : List Turn) : recent turns <+: turns := by
  induction turns with
  | nil => exact List.prefix_rfl
  | cons t earlier ih =>
    unfold recent
    split
    · exact List.nil_prefix
    · exact List.cons_prefix_cons.2 ⟨rfl, ih⟩

def turnsOf (history : List Exchange) : List Turn := history.map Exchange.toTurn

structure Recalls (url : String) (m : Machine) (history : List Exchange) : Prop where
  url_eq : m.url = url
  remembers : Remembers m (turnsOf history)
  announced : ∀ e ∈ history.head?, ∀ cause, .disconnected cause ∈ e.effects →
    cause.next.isFinal = false →
      m.state = .reconnecting ∧ cause.next = if m.canResume then .resume else .reidentify

namespace Recalls
variable {url : String} {m : Machine} {history : List Exchange}

theorem listen (url : String) (backoff : Backoff) (maxFailures : Nat) (arrivals : List Arrival) :
    Recalls url ((Machine.create url backoff maxFailures).listen arrivals).1
      ((Machine.create url backoff maxFailures).listen arrivals).2 := by
  refine Machine.listen_keeps ⟨rfl, .create url backoff maxFailures, by simp⟩ ?_ arrivals
  intro m history now roll i h
  refine ⟨(m.url_handle now roll i).trans h.url_eq, h.remembers.handle now roll i, ?_⟩
  intro e he cause hc hf
  obtain rfl : _ = e := Option.some.inj he
  exact Machine.next_handle hc hf

/-- What a machine can resume is the session of the latest READY. -/
theorem ready_of_canResume (h : Recalls url m history) (hc : m.canResume = true) :
    ∃ ready sequence,
      (turnsOf history).findSome? Turn.ready? = some ready ∧
      (turnsOf history).findSome? Turn.sequence? = some sequence ∧
      m.memory = ⟨some ready.sessionId, some sequence, ready.resumeUrl⟩ := by
  have hm := h.remembers.memory
  have hc : m.memory.canResume = true := hc
  rw [hm] at hc ⊢
  unfold Memory.canResume Memory.ofTurns at hc
  cases hr : (recent (turnsOf history)).findSome? Turn.ready? with
  | none => simp [hr] at hc
  | some ready =>
    cases hs : (recent (turnsOf history)).findSome? Turn.sequence? with
    | none => simp [hs] at hc
    | some sequence =>
      have hp := recent_prefix_turns (turnsOf history)
      exact ⟨ready, sequence, hp.findSome?_eq_some hr, hp.findSome?_eq_some hs,
        by simp [Memory.ofTurns, hr, hs]⟩

/-- A resume address comes from the READY whose session is kept. -/
theorem ready_of_resumeUrl (h : Recalls url m history) {address : String}
    (hu : m.resumeUrl = some address) :
    ∃ ready, (turnsOf history).findSome? Turn.ready? = some ready ∧
      m.sessionId = some ready.sessionId ∧ ready.resumeUrl = some address := by
  have hm := h.remembers.memory
  simp only [Machine.memory, Memory.ofTurns, Memory.mk.injEq] at hm
  rw [hm.2.2] at hu
  cases hr : (recent (turnsOf history)).findSome? Turn.ready? with
  | none => simp [hr] at hu
  | some ready =>
    rw [hr] at hu hm
    exact ⟨ready, (recent_prefix_turns _).findSome?_eq_some hr, hm.1, hu⟩

end Recalls

namespace Machine

/-- Whatever has come in: where the latest input has cost the machine its connection, the session
that it announces to resume is that of the latest READY, and it connects to the address that this
READY gave and resumes it; where it announces to start anew, it connects to the configured address
and identifies. An address for resuming is never kept without its session. -/
theorem announced_step_is_taken (url : String) (backoff : Backoff) (maxFailures : Nat)
    (arrivals later : List Arrival) :
    let (m, history) := (create url backoff maxFailures).listen arrivals
    (∀ loss ∈ history.head?, ∀ cause, .disconnected cause ∈ loss.effects →
      (∀ c, .disconnected c ∉ m.asked later) →
        (cause.next = .resume → ∃ ready sequence,
          (turnsOf history).findSome? Turn.ready? = some ready ∧
          (turnsOf history).findSome? Turn.sequence? = some sequence ∧
          Carries (m.asked later) later (.openUrl (ready.resumeUrl.getD url))
            (.resume ready.sessionId sequence)) ∧
        (cause.next = .reidentify →
          Carries (m.asked later) later (.openUrl url) .identify)) ∧
    ∀ address, m.resumeUrl = some address →
      ∃ ready, (turnsOf history).findSome? Turn.ready? = some ready ∧
        m.sessionId = some ready.sessionId ∧ ready.resumeUrl = some address := by
  dsimp only
  have h := Recalls.listen url backoff maxFailures arrivals
  generalize ((create url backoff maxFailures).listen arrivals).1 = m at h ⊢
  generalize ((create url backoff maxFailures).listen arrivals).2 = history at h ⊢
  refine ⟨fun loss hloss cause hc hq => ⟨fun hn => ?_, fun hn => ?_⟩,
    fun address hu => h.ready_of_resumeUrl hu⟩
  · -- Announced to resume: the memory is that of the latest READY, and nothing changes it before
    -- the hello.
    obtain ⟨hs, hnext⟩ := h.announced loss hloss cause hc (by rw [hn]; rfl)
    have hcan : m.canResume = true := by
      cases hcan : m.canResume with
      | true => rfl
      | false => simp [hn, hcan] at hnext
    obtain ⟨ready, sequence, hr, hseq, hm⟩ := h.ready_of_canResume hcan
    obtain ⟨haddress, hshake⟩ :=
      Memory.plan_of_canResume ready.sessionId sequence ready.resumeUrl url
    have hcarries := asked_reconnecting hs hq
    rw [hm, h.url_eq, haddress, hshake] at hcarries
    exact ⟨ready, sequence, hr, hseq, hcarries⟩
  · -- Announced to start anew: the memory may hold a session, but not enough to resume it.
    obtain ⟨hs, hnext⟩ := h.announced loss hloss cause hc (by rw [hn]; rfl)
    have hcan : m.memory.canResume = false := by
      cases hcan : m.canResume with
      | true => simp [hn, hcan] at hnext
      | false => exact hcan
    obtain ⟨haddress, hshake⟩ := Memory.plan_of_not_canResume hcan m.url
    have hcarries := asked_reconnecting hs hq
    rw [haddress, hshake, h.url_eq] at hcarries
    exact hcarries

/-- A session that becomes ready with a resume address, and is dropped. Without a sequence number
it cannot be resumed. -/
def readyThenDropped (sequence : Option UInt64) : List Arrival :=
  [⟨⟨0⟩, 0, .connect⟩, ⟨⟨1⟩, 0, .opened⟩, ⟨⟨2⟩, 0, .hello (.ofSecs 40)⟩,
    ⟨⟨3⟩, 0, .dispatch ⟨"READY", sequence, .null⟩
      (some ⟨some 10, "s1", some "wss://resume", none⟩)⟩,
    ⟨⟨4⟩, 0, .closed ⟨some 4000, "bye"⟩⟩]

/-- The next attempt is made, and its connection is greeted. A stray hello comes too early. -/
def nextAttempt : List Arrival :=
  [⟨⟨5⟩, 0, .hello (.ofSecs 1)⟩, ⟨⟨6⟩, 0, .reconnectDue⟩, ⟨⟨7⟩, 0, .opened⟩,
    ⟨⟨8⟩, 0, .hello (.ofSecs 40)⟩]

theorem readyThenDropped_takes_announced_step :
    let resumable := (create "wss://gateway" .standard 3).listen (readyThenDropped (some 7))
    let other := (create "wss://gateway" .standard 3).listen (readyThenDropped none)
    (∃ loss ∈ resumable.2.head?, .disconnected ⟨some 4000, "bye", .resume⟩ ∈ loss.effects ∧
      (∀ c, .disconnected c ∉ resumable.1.asked nextAttempt) ∧
      Carries (resumable.1.asked nextAttempt) nextAttempt (.openUrl "wss://resume")
        (.resume "s1" 7)) ∧
    (∃ loss ∈ other.2.head?, .disconnected ⟨some 4000, "bye", .reidentify⟩ ∈ loss.effects ∧
      (∀ c, .disconnected c ∉ other.1.asked nextAttempt) ∧
      Carries (other.1.asked nextAttempt) nextAttempt (.openUrl "wss://gateway") .identify) ∧
    other.1.resumeUrl = some "wss://resume" ∧ other.1.sessionId = some "s1" := by
  obtain ⟨hresumable, -⟩ := announced_step_is_taken "wss://gateway" .standard 3
    (readyThenDropped (some 7)) nextAttempt
  obtain ⟨hother, -⟩ := announced_step_is_taken "wss://gateway" .standard 3
    (readyThenDropped none) nextAttempt
  have hq : ∀ c, .disconnected c ∉
      ((create "wss://gateway" .standard 3).listen (readyThenDropped (some 7))).1.asked
        nextAttempt := by
    have he : ((create "wss://gateway" .standard 3).listen (readyThenDropped (some 7))).1.asked
        nextAttempt =
          [.openUrl "wss://resume", .startHeartbeat (.ofSecs 40), .resume "s1" 7] := rfl
    simp [he]
  have hq' : ∀ c, .disconnected c ∉
      ((create "wss://gateway" .standard 3).listen (readyThenDropped none)).1.asked
        nextAttempt := by
    have he : ((create "wss://gateway" .standard 3).listen (readyThenDropped none)).1.asked
        nextAttempt = [.openUrl "wss://gateway", .startHeartbeat (.ofSecs 40), .identify] := rfl
    simp [he]
  refine ⟨⟨_, rfl, .tail _ (.tail _ (.head _)), hq, ?_⟩,
    ⟨_, rfl, .tail _ (.tail _ (.head _)), hq', ?_⟩, rfl, rfl⟩
  · obtain ⟨ready, sequence, hr, hs, hc⟩ :=
      (hresumable _ rfl ⟨some 4000, "bye", .resume⟩ (.tail _ (.tail _ (.head _))) hq).1 rfl
    have hready : ⟨some 10, "s1", some "wss://resume", none⟩ = ready := Option.some.inj hr
    have hsequence : 7 = sequence := Option.some.inj hs
    rw [← hready, ← hsequence] at hc
    exact hc
  · exact (hother _ rfl ⟨some 4000, "bye", .reidentify⟩ (.tail _ (.tail _ (.head _))) hq').2 rfl

end Machine

end Parley.Gateway
