import Parley.Proofs.Gateway.HeartbeatTimeout

/-! When a session is given up for good: after a close that says so, or once as many attempts in a
row have been lost as are allowed. Attempts are counted over the history, from the last time that the
session became ready; a machine that has given up does nothing more. -/
namespace Parley.Gateway

namespace Effect

def isConnected : Effect → Bool
  | connected _ => true
  | _ => false

def isReconnect : Effect → Bool
  | scheduleReconnect _ => true
  | _ => false

end Effect

instance (e : Exchange) : Decidable e.Beats :=
  decidable_of_iff (e.input = .tick ∧ e.effects.any fun | .heartbeat _ => true | _ => false) <| by
    unfold Exchange.Beats
    refine and_congr_right fun _ => ?_
    rw [List.any_eq_true]
    constructor
    · rintro ⟨effect, hm, hb⟩
      cases effect with
      | heartbeat sequence => exact ⟨sequence, hm⟩
      | _ => simp at hb
    · rintro ⟨sequence, hm⟩
      exact ⟨.heartbeat sequence, hm, rfl⟩

instance decidableUnanswered : (history : List Exchange) → Decidable (Unanswered history)
  | [] => isFalse not_unanswered_nil
  | _ :: history =>
    have := decidableUnanswered history
    decidable_of_iff _ unanswered_cons.symm

namespace Input

/-- A machine in this state, with this history, loses its connection or its attempt at one. A tick
does that to a connection whose heartbeat is unanswered. -/
def Loses (history : List Exchange) (s : State) : Input → Prop
  | connectFailed _ => s = .connecting
  | closed _ => s.isOpen = true
  | tick => s.isLive = true ∧ Unanswered history
  | reconnectRequested | invalidSession _ => s.isLive = true
  | _ => False

instance (history : List Exchange) (s : State) : (i : Input) → Decidable (i.Loses history s)
  | connectFailed _ => inferInstanceAs (Decidable (s = .connecting))
  | closed _ => inferInstanceAs (Decidable (s.isOpen = true))
  | tick => inferInstanceAs (Decidable (s.isLive = true ∧ Unanswered history))
  | reconnectRequested | invalidSession _ => inferInstanceAs (Decidable (s.isLive = true))
  | connect | opened | hello _ | dispatch .. | heartbeatRequested | heartbeatAck | reconnectDue
  | shutdown => inferInstanceAs (Decidable False)

def isFatalClose (s : State) : Input → Bool
  | closed info => s.isOpen && info.code.any fun code => CloseAction.forCode code == .fatal
  | _ => false

def isInvalidSession : Input → Bool
  | invalidSession _ => true
  | _ => false

def ownWait? (i : Input) (roll : Nat) : Option Duration :=
  if i.isInvalidSession then some (Backoff.invalidSessionWait roll) else none

end Input

/-- Attempts that were lost before they became ready, since the last one that did. -/
def failedAttempts : List Exchange → Nat
  | [] => 0
  | e :: history =>
    if e.effects.any Effect.isConnected then 0
    else if e.input.Loses history e.before ∧ e.before ≠ .ready then failedAttempts history + 1
    else failedAttempts history

namespace Machine
variable {m : Machine} {history : List Exchange} {i : Input}

theorem Tracks.awaiting_iff (h : Tracks m history) (hl : m.state.isLive = true) :
    m.heartbeat.isAwaiting = true ↔ Unanswered history := by
  unfold Tracks at h
  rw [h, and_iff_right hl]

/-- A loss tears the connection down, for good if it is a close that says so. -/
theorem handle_of_loses (ht : Tracks m history) (hl : i.Loses history m.state) (now : Instant)
    (roll : Nat) :
    ∃ code reason action,
      m.handle now roll i = m.connectionLost roll code reason action (i.ownWait? roll) ∧
        (action = .fatal ↔ i.isFatalClose m.state = true) := by
  cases i with
  | connectFailed reason =>
    simp only [Input.Loses] at hl
    rw [handle_connectFailed, if_pos hl]
    exact ⟨_, _, _, rfl, by simp [Input.isFatalClose]⟩
  | closed info =>
    simp only [Input.Loses] at hl
    rw [handle_closed, if_pos hl]
    refine ⟨_, _, _, rfl, ?_⟩
    obtain ⟨code, reason⟩ := info
    cases code <;> simp [Input.isFatalClose, handle.actionOf, hl]
  | tick =>
    obtain ⟨hl, hu⟩ := hl
    rw [handle_tick, if_pos hl, onTick, if_pos ((ht.awaiting_iff hl).2 hu)]
    exact ⟨_, _, _, rfl, by simp [Input.isFatalClose]⟩
  | reconnectRequested =>
    simp only [Input.Loses] at hl
    rw [handle_reconnectRequested, if_pos hl]
    exact ⟨_, _, _, rfl, by simp [Input.isFatalClose]⟩
  | invalidSession resumable =>
    simp only [Input.Loses] at hl
    rw [handle_invalidSession, if_pos hl]
    exact ⟨_, _, _, rfl, by cases resumable <;> simp [Input.isFatalClose]⟩
  | _ => exact hl.elim

/-- What an input does that loses nothing: the count starts anew when the session becomes ready, and
stays as it is otherwise. -/
structure Continues (m : Machine) (result : Machine × List Effect) : Prop where
  reconnects : result.2.countP Effect.isReconnect = 0
  state : result.1.state = .fatal → m.state = .fatal
  maxFailures : result.1.maxFailures = m.maxFailures
  failures : result.1.failures = if result.2.any Effect.isConnected then 0 else m.failures
  backoff : result.1.backoff = m.backoff

namespace Continues

theorem stay (m : Machine) : m.Continues (m, []) := ⟨rfl, id, rfl, rfl, rfl⟩

theorem onHello (m : Machine) (interval : Duration) : m.Continues (m.onHello interval) := by
  unfold Machine.onHello
  cases m.sessionId <;> cases m.sequence <;>
    exact ⟨rfl, by simp, rfl, rfl, rfl⟩

theorem onDispatch (hl : m.state.isLive = true) (event : Event) (ready : Option Ready) :
    m.Continues (m.onDispatch event ready) := by
  unfold Machine.onDispatch
  obtain h | h | h := State.isLive_cases hl <;> cases event.sequence <;> cases ready <;>
    simp only [h, reduceCtorEq, or_self, or_true, true_or, if_true, if_false] <;>
    exact ⟨rfl, by simp [h], rfl, rfl, rfl⟩

end Continues

theorem continues_of_not_loses (ht : Tracks m history) (hl : ¬ i.Loses history m.state)
    (now : Instant) (roll : Nat) : m.Continues (m.handle now roll i) := by
  cases i with
  | connect =>
    rw [handle_connect]
    split
    · exact ⟨rfl, by simp, rfl, rfl, rfl⟩
    · exact .stay m
  | opened =>
    rw [handle_opened]
    split
    · exact ⟨rfl, by simp, rfl, rfl, rfl⟩
    · exact .stay m
  | connectFailed reason =>
    simp only [Input.Loses] at hl
    rw [handle_connectFailed, if_neg hl]
    exact .stay m
  | hello interval =>
    rw [handle_hello]
    split
    · exact .onHello m interval
    · exact .stay m
  | dispatch event ready =>
    rw [handle_dispatch]
    split
    · next hl => exact .onDispatch hl event ready
    · exact .stay m
  | tick =>
    rw [handle_tick]
    split
    · next hlive =>
      have ha : m.heartbeat.isAwaiting ≠ true := fun ha => hl ⟨hlive, (ht.awaiting_iff hlive).1 ha⟩
      rw [onTick, if_neg ha]
      exact ⟨rfl, id, rfl, rfl, rfl⟩
    · exact .stay m
  | heartbeatRequested =>
    rw [handle_heartbeatRequested]
    split
    · exact ⟨rfl, id, rfl, rfl, rfl⟩
    · exact .stay m
  | heartbeatAck =>
    rw [handle_heartbeatAck]
    split
    · exact .stay m
    · exact ⟨rfl, id, rfl, rfl, rfl⟩
  | reconnectRequested =>
    simp only [Input.Loses] at hl
    rw [handle_reconnectRequested, if_neg hl]
    exact .stay m
  | invalidSession resumable =>
    simp only [Input.Loses] at hl
    rw [handle_invalidSession, if_neg hl]
    exact .stay m
  | closed info =>
    simp only [Input.Loses] at hl
    rw [handle_closed, if_neg hl]
    exact .stay m
  | reconnectDue =>
    rw [handle_reconnectDue]
    split
    · exact ⟨rfl, by simp, rfl, rfl, rfl⟩
    · exact .stay m
  | shutdown =>
    rw [handle_shutdown]
    split
    · exact .stay m
    · unfold onShutdown
      split
      · exact .stay m
      · exact ⟨rfl, by simp, rfl, rfl, rfl⟩

section
variable (m : Machine) (roll : Nat) (code : Option UInt16) (reason : String) (action : CloseAction)
  (wait : Option Duration)

theorem connectionLost_fatal_iff :
    (m.connectionLost roll code reason action wait).1.state = .fatal ↔
      action = .fatal ∨ m.maxFailures ≤ m.failuresAfterLoss := by
  by_cases ha : action = .fatal
  · subst ha
    exact iff_of_true rfl (.inl rfl)
  · rw [connectionLost_of_ne_fatal m roll code reason wait ha]
    split
    · next h => exact iff_of_true rfl (.inr h)
    · next h => exact iff_of_false (by simp) (by simp [ha, h])

theorem failures_connectionLost :
    (m.connectionLost roll code reason action wait).1.failures =
      if action = .fatal then m.failures else m.failuresAfterLoss := by
  by_cases ha : action = .fatal
  · subst ha
    rfl
  · rw [connectionLost_of_ne_fatal m roll code reason wait ha, if_neg ha]
    split <;> rfl

theorem maxFailures_connectionLost :
    (m.connectionLost roll code reason action wait).1.maxFailures = m.maxFailures := by
  by_cases ha : action = .fatal
  · subst ha
    rfl
  · rw [connectionLost_of_ne_fatal m roll code reason wait ha]
    unfold unplugged
    split <;> split <;> rfl

theorem backoff_connectionLost :
    (m.connectionLost roll code reason action wait).1.backoff = m.backoff := by
  by_cases ha : action = .fatal
  · subst ha
    rfl
  · rw [connectionLost_of_ne_fatal m roll code reason wait ha]
    unfold unplugged
    split <;> split <;> rfl

theorem reconnects_connectionLost :
    (m.connectionLost roll code reason action wait).2.countP Effect.isReconnect =
      if (m.connectionLost roll code reason action wait).1.state = .fatal then 0 else 1 := by
  by_cases ha : action = .fatal
  · subst ha
    rfl
  · rw [connectionLost_of_ne_fatal m roll code reason wait ha]
    split <;> rfl

theorem not_connected_connectionLost :
    (m.connectionLost roll code reason action wait).2.any Effect.isConnected = false := by
  by_cases ha : action = .fatal
  · subst ha
    rfl
  · rw [connectionLost_of_ne_fatal m roll code reason wait ha]
    split <;> rfl

theorem fatalReason_connectionLost
    (h : (m.connectionLost roll code reason action wait).1.state = .fatal) :
    (m.connectionLost roll code reason action wait).1.fatalReason.isSome = true := by
  by_cases ha : action = .fatal
  · subst ha
    rfl
  · rw [connectionLost_of_ne_fatal m roll code reason wait ha] at h ⊢
    split at h
    · next hm => rw [if_pos hm]; rfl
    · simp at h

end

theorem handle_of_fatal (h : m.state = .fatal) (now : Instant) (roll : Nat) (i : Input) :
    m.handle now roll i = (m, []) := by
  obtain ⟨state⟩ := m
  obtain rfl : state = .fatal := h
  rfl

theorem listen_of_fatal (h : m.state = .fatal) (later : List Arrival) :
    (m.listen later).1 = m ∧ ∀ e ∈ (m.listen later).2, e.effects = [] := by
  refine listen_keeps (P := fun m' history => m' = m ∧ ∀ e ∈ history, e.effects = [])
    ⟨rfl, by simp⟩ ?_ later
  rintro _ history now roll i ⟨rfl, hq⟩
  rw [handle_of_fatal h]
  exact ⟨rfl, by simpa using hq⟩

theorem ne_fatal_of_loses (h : i.Loses history m.state) : m.state ≠ .fatal := by
  intro hf
  rw [hf] at h
  cases i <;> simp [Input.Loses, State.isOpen, State.isLive] at h

/-- The count of a machine is that of its history, and short of what is allowed; a machine that has
given up says why and has no session. -/
structure Escalates (limit : Nat) (m : Machine) (history : List Exchange) : Prop where
  tracks : m.Tracks history
  maxFailures : m.maxFailures = limit
  counted : m.state ≠ .fatal → m.failures = failedAttempts history ∧ m.failures < limit
  bounded : m.failures ≤ limit
  gaveUp : m.state = .fatal → m.memory = .blank ∧ m.fatalReason.isSome = true

namespace Escalates
variable {limit : Nat}

theorem create (url : String) (backoff : Backoff) (maxFailures : Nat) :
    Escalates (max maxFailures 1) (.create url backoff maxFailures) [] := by
  refine ⟨.create url backoff maxFailures, rfl, fun _ => ⟨rfl, ?_⟩, Nat.zero_le _, ?_⟩
  · exact Nat.lt_of_lt_of_le Nat.zero_lt_one (Nat.le_max_right _ _)
  · intro h
    simp [Machine.create] at h

theorem failedAttempts_of_loses (h : Escalates limit m history) (hl : i.Loses history m.state)
    (now : Instant) (roll : Nat) :
    failedAttempts (⟨⟨m.state, i, (m.handle now roll i).1.state⟩, (m.handle now roll i).2⟩ ::
      history) = m.failuresAfterLoss := by
  obtain ⟨code, reason, action, hc, -⟩ := handle_of_loses h.tracks hl now roll
  rw [failedAttempts, hc, not_connected_connectionLost]
  have hm := (h.counted (ne_fatal_of_loses hl)).1
  unfold failuresAfterLoss
  by_cases hr : m.state = .ready
  · simp [hr, hm]
  · simp [hr, hm, hl]

theorem handle (h : Escalates limit m history) (now : Instant) (roll : Nat) (i : Input) :
    Escalates limit (m.handle now roll i).1
      (⟨⟨m.state, i, (m.handle now roll i).1.state⟩, (m.handle now roll i).2⟩ :: history) := by
  have ht := h.tracks.handle now roll i
  by_cases hl : i.Loses history m.state
  · have ha := h.failedAttempts_of_loses hl now roll
    obtain ⟨hm, hlt⟩ := h.counted (ne_fatal_of_loses hl)
    obtain ⟨code, reason, action, he, -⟩ := handle_of_loses h.tracks hl now roll
    have hf := connectionLost_fatal_iff m roll code reason action (i.ownWait? roll)
    have hc := failures_connectionLost m roll code reason action (i.ownWait? roll)
    have hle : m.failuresAfterLoss ≤ limit := by
      unfold failuresAfterLoss
      split <;> omega
    rw [he] at ht ha ⊢
    refine ⟨ht, by rw [maxFailures_connectionLost, h.maxFailures], fun hn => ?_, ?_, fun hs => ?_⟩
    · rw [ne_eq, hf, not_or, h.maxFailures] at hn
      rw [hc, if_neg hn.1, ha]
      exact ⟨rfl, Nat.lt_of_not_le hn.2⟩
    · rw [hc]
      split
      · exact h.bounded
      · exact hle
    · refine ⟨?_, fatalReason_connectionLost m roll code reason action _ hs⟩
      rw [memory_connectionLost, if_neg (by simp [hs])]
  · have hc := continues_of_not_loses h.tracks hl now roll
    refine ⟨ht, hc.maxFailures.trans h.maxFailures, fun hn => ?_, ?_, fun hs => ?_⟩
    · have hs : m.state ≠ .fatal := fun hs => hn (by rw [handle_of_fatal hs]; exact hs)
      obtain ⟨hm, hlt⟩ := h.counted hs
      simp only [hc.failures, failedAttempts, hl, false_and, if_false, hm, true_and]
      split <;> omega
    · rw [hc.failures]
      split
      · exact Nat.zero_le limit
      · exact h.bounded
    · rw [handle_of_fatal (hc.state hs)]
      exact h.gaveUp (hc.state hs)

theorem listen (url : String) (backoff : Backoff) (maxFailures : Nat) (arrivals : List Arrival) :
    Escalates (max maxFailures 1) ((Machine.create url backoff maxFailures).listen arrivals).1
      ((Machine.create url backoff maxFailures).listen arrivals).2 :=
  listen_keeps (create url backoff maxFailures) (fun _ _ now roll i h => h.handle now roll i)
    arrivals

theorem fatal_iff (h : Escalates limit m history) (now : Instant) (roll : Nat) (i : Input)
    (hs : m.state ≠ .fatal) :
    (m.handle now roll i).1.state = .fatal ↔
      i.isFatalClose m.state = true ∨ i.Loses history m.state ∧ m.state ≠ .ready ∧
        failedAttempts (⟨⟨m.state, i, (m.handle now roll i).1.state⟩,
          (m.handle now roll i).2⟩ :: history) = limit := by
  obtain ⟨-, hlt⟩ := h.counted hs
  by_cases hl : i.Loses history m.state
  · rw [h.failedAttempts_of_loses hl now roll]
    obtain ⟨code, reason, action, he, ha⟩ := handle_of_loses h.tracks hl now roll
    rw [he, connectionLost_fatal_iff, ha, h.maxFailures, and_iff_right hl]
    refine or_congr_right ?_
    unfold failuresAfterLoss
    split
    · next hr => simp only [hr, ne_eq, not_true, false_and, iff_false]; omega
    · next hr => simp only [hr, ne_eq, not_false_iff, true_and]; omega
  · refine iff_of_false (fun hf => hs ((continues_of_not_loses h.tracks hl now roll).state hf)) ?_
    rintro (hf | ⟨hl', -⟩)
    · cases i <;> simp_all [Input.isFatalClose, Input.Loses]
    · exact hl hl'

theorem reconnects (h : Escalates limit m history) (now : Instant) (roll : Nat) (i : Input) :
    (m.handle now roll i).2.countP Effect.isReconnect =
      if i.Loses history m.state ∧ (m.handle now roll i).1.state ≠ .fatal then 1 else 0 := by
  by_cases hl : i.Loses history m.state
  · obtain ⟨code, reason, action, he, -⟩ := handle_of_loses h.tracks hl now roll
    rw [he, reconnects_connectionLost]
    simp [hl]
  · rw [(continues_of_not_loses h.tracks hl now roll).reconnects, if_neg (fun hb => hl hb.1)]

end Escalates

/-- A session is given up exactly after a fatal close, or at the loss with which as many attempts in
a row have been lost before they became ready as are allowed. Each other loss, and nothing else,
plans one new attempt. The count stays within what is allowed, and nothing changes a machine that has
given up. -/
theorem gives_up_iff (url : String) (backoff : Backoff) (maxFailures : Nat)
    (arrivals : List Arrival) (now : Instant) (roll : Nat) (i : Input) :
    let limit := max maxFailures 1
    let (m, history) := (create url backoff maxFailures).listen arrivals
    let (next, effects) := m.handle now roll i
    (m.state ≠ .fatal → m.failures = failedAttempts history ∧
      (next.state = .fatal ↔ i.isFatalClose m.state = true ∨
        i.Loses history m.state ∧ m.state ≠ .ready ∧
          failedAttempts (⟨⟨m.state, i, next.state⟩, effects⟩ :: history) = limit)) ∧
    effects.countP Effect.isReconnect =
      (if i.Loses history m.state ∧ next.state ≠ .fatal then 1 else 0) ∧
    m.failures ≤ limit ∧
    (m.state = .fatal → m.memory = .blank ∧ m.fatalReason.isSome = true ∧
      ∀ later, (m.listen later).1 = m ∧ ∀ e ∈ (m.listen later).2, e.effects = []) := by
  dsimp only
  have h := Escalates.listen url backoff maxFailures arrivals
  refine ⟨fun hs => ⟨(h.counted hs).1, h.fatal_iff now roll i hs⟩, h.reconnects now roll i,
    h.bounded, fun hs => ?_⟩
  obtain ⟨hm, hr⟩ := h.gaveUp hs
  exact ⟨hm, hr, listen_of_fatal hs⟩

/-- A session that fails once, becomes ready, loses its connection and fails again. -/
def failedTwice : List Arrival :=
  [⟨⟨0⟩, 0, .connect⟩, ⟨⟨1⟩, 0, .connectFailed "refused"⟩, ⟨⟨2⟩, 0, .reconnectDue⟩,
    ⟨⟨3⟩, 0, .opened⟩, ⟨⟨4⟩, 0, .hello (.ofSecs 40)⟩,
    ⟨⟨5⟩, 0, .dispatch ⟨"READY", some 1, .null⟩ (some ⟨some 10, "s1", none, none⟩)⟩,
    ⟨⟨6⟩, 0, .closed ⟨some 4000, "bye"⟩⟩, ⟨⟨7⟩, 0, .reconnectDue⟩,
    ⟨⟨8⟩, 0, .connectFailed "refused"⟩, ⟨⟨9⟩, 0, .reconnectDue⟩, ⟨⟨10⟩, 0, .opened⟩]

/-- The failure before it became ready and the loss while it was count for nothing. -/
theorem failedTwice_gives_up_at_next_loss :
    let lost : Input := .closed ⟨none, "transport dropped"⟩
    let fresh := create "wss://gateway.test" .standard 2
    let m := (fresh.listen failedTwice).1
    let ended := (fresh.listen (failedTwice ++ [⟨⟨11⟩, 0, lost⟩])).1
    (m.state ≠ .fatal ∧ m.failures = 1 ∧ (m.handle ⟨11⟩ 0 lost).1.state = .fatal) ∧
      (ended.state = .fatal ∧ (ended.listen failedTwice).1 = ended) := by
  have h := gives_up_iff "wss://gateway.test" .standard 2
  have hs : ((create "wss://gateway.test" .standard 2).listen failedTwice).1.state ≠ .fatal := by
    decide
  have hm := (h failedTwice ⟨11⟩ 0 (.closed ⟨none, "transport dropped"⟩)).1 hs
  refine ⟨⟨hs, hm.1.trans (by decide), hm.2.2 (.inr ⟨rfl, by decide, by decide⟩)⟩, rfl, ?_⟩
  have ho := h (failedTwice ++ [⟨⟨11⟩, 0, .closed ⟨none, "transport dropped"⟩⟩]) ⟨12⟩ 0 .connect
  exact ((ho.2.2.2 rfl).2.2 failedTwice).1

end Machine

end Parley.Gateway
