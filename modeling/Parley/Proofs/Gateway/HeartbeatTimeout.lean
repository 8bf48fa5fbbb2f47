import Parley.Proofs.Gateway.Memory

/-! A connection counts as dead once the clock ticks again over a heartbeat that the server has not
acknowledged. Whether one is outstanding is read off the history of the connection. -/
namespace Parley.Gateway

structure Exchange extends Turn where
  effects : List Effect

namespace Exchange

def Beats (e : Exchange) : Prop := e.input = .tick ∧ ∃ sequence, .heartbeat sequence ∈ e.effects

end Exchange

/-- The exchanges after the hello of the connection, the latest standing first. -/
def sinceHello (history : List Exchange) : List Exchange :=
  history.takeWhile fun e => !e.acceptsHello

/-- A tick of the connection has sent a heartbeat, and no acknowledgement has come in since. -/
def Unanswered (history : List Exchange) : Prop :=
  ∃ later e earlier, sinceHello history = later ++ e :: earlier ∧ e.Beats ∧
    ∀ a ∈ later, a.input ≠ .heartbeatAck

theorem not_unanswered_nil : ¬ Unanswered [] := by
  rintro ⟨later, e, earlier, h, -⟩
  simp [sinceHello] at h

theorem unanswered_cons {e : Exchange} {history : List Exchange} :
    Unanswered (e :: history) ↔
      e.acceptsHello = false ∧ (e.Beats ∨ e.input ≠ .heartbeatAck ∧ Unanswered history) := by
  unfold Unanswered sinceHello
  cases hh : e.acceptsHello with
  | true => simp [hh]
  | false =>
    simp only [List.takeWhile_cons, hh, Bool.not_false, if_true, true_and]
    constructor
    · rintro ⟨later, b, earlier, h, hb, hn⟩
      cases later with
      | nil =>
        obtain ⟨rfl, -⟩ := List.cons.inj h
        exact .inl hb
      | cons a later =>
        obtain ⟨rfl, ht⟩ := List.cons.inj h
        exact .inr ⟨hn e List.mem_cons_self,
          later, b, earlier, ht, hb, fun c hc => hn c (List.mem_cons_of_mem e hc)⟩
    · rintro (hb | ⟨hi, later, b, earlier, h, hb, hn⟩)
      · exact ⟨[], e, _, rfl, hb, by simp⟩
      · refine ⟨e :: later, b, earlier, by rw [h]; rfl, hb, ?_⟩
        simpa [hi] using hn

namespace Machine

def exchange (x : Machine × List Exchange) (a : Arrival) : Machine × List Exchange :=
  let (next, effects) := x.1.handle a.now a.roll a.input
  (next, ⟨⟨x.1.state, a.input, next.state⟩, effects⟩ :: x.2)

def listen (m : Machine) (arrivals : List Arrival) : Machine × List Exchange :=
  arrivals.foldl exchange (m, [])

theorem listen_keeps {P : Machine → List Exchange → Prop} {m : Machine} (h : P m [])
    (hs : ∀ (m : Machine) (history : List Exchange) (now : Instant) (roll : Nat) (i : Input),
      P m history → P (m.handle now roll i).1
        (⟨⟨m.state, i, (m.handle now roll i).1.state⟩, (m.handle now roll i).2⟩ :: history))
    (arrivals : List Arrival) : P (m.listen arrivals).1 (m.listen arrivals).2 := by
  have hrun : ∀ x : Machine × List Exchange, P x.1 x.2 →
      P (arrivals.foldl exchange x).1 (arrivals.foldl exchange x).2 := by
    induction arrivals with
    | nil => exact fun _ h => h
    | cons a arrivals ih => exact fun x h => ih (exchange x a) (hs x.1 x.2 a.now a.roll a.input h)
  exact hrun (m, []) h

/-- The connection is given up, to be replaced unless too many attempts have failed. -/
def TearsDown (m : Machine) (result : Machine × List Effect) : Prop :=
  [.stopHeartbeat, .closeTransport resumableClose] <+: result.2 ∧
    result.1.state = if m.maxFailures ≤ m.failuresAfterLoss then .fatal else .reconnecting

@[simp] theorem isAwaiting_start (h : Heartbeat) (interval : Duration) :
    (h.start interval).isAwaiting = false := rfl

@[simp] theorem isAwaiting_stop (h : Heartbeat) : h.stop.isAwaiting = false := rfl

@[simp] theorem isAwaiting_sent (h : Heartbeat) (now : Instant) : (h.sent now).isAwaiting = true :=
  rfl

@[simp] theorem isAwaiting_acked (h : Heartbeat) (now : Instant) :
    (h.acked now).1.isAwaiting = false := by
  obtain ⟨interval, pending, latency⟩ := h
  cases pending <;> rfl

/-- An acknowledgement of nothing changes nothing. -/
theorem acked_of_not_awaiting {h : Heartbeat} (ha : h.isAwaiting = false) (now : Instant) :
    (h.acked now).1 = h := by
  obtain ⟨interval, pending, latency⟩ := h
  cases pending with
  | none => rfl
  | some t => simp [Heartbeat.isAwaiting] at ha

@[simp] theorem heartbeat_connectionLost (m : Machine) (roll : Nat) (code : Option UInt16)
    (reason : String) (action : CloseAction) (wait : Option Duration) :
    (m.connectionLost roll code reason action wait).1.heartbeat = m.heartbeat.stop := by
  by_cases ha : action = .fatal
  · subst ha
    rfl
  · rw [connectionLost_of_ne_fatal m roll code reason wait ha]
    split <;> rfl

@[simp] theorem heartbeat_onHello (m : Machine) (interval : Duration) :
    (m.onHello interval).1.heartbeat = m.heartbeat.start interval := by
  unfold onHello
  cases m.sessionId <;> cases m.sequence <;> rfl

@[simp] theorem heartbeat_onDispatch (m : Machine) (event : Event) (ready : Option Ready) :
    (m.onDispatch event ready).1.heartbeat = m.heartbeat := by
  unfold onDispatch
  cases event.sequence <;> cases ready <;> dsimp only <;> split <;> rfl

theorem not_isLive_connectionLost (m : Machine) (roll : Nat) (code : Option UInt16)
    (reason : String) (action : CloseAction) (wait : Option Duration) :
    (m.connectionLost roll code reason action wait).1.state.isLive = false := by
  obtain h | h := connectionLost_state m roll code reason wait action <;> rw [h] <;> rfl

/-- What the machine keeps is what the history says; nothing is outstanding without a connection
that has said hello. -/
def Tracks (m : Machine) (history : List Exchange) : Prop :=
  m.heartbeat.isAwaiting = true ↔ m.state.isLive = true ∧ Unanswered history

namespace Tracks
variable {m next : Machine} {history : List Exchange} {e : Exchange}

theorem create (url : String) (backoff : Backoff) (maxFailures : Nat) :
    Tracks (.create url backoff maxFailures) [] := by
  simp [Tracks, Machine.create, Heartbeat.isAwaiting, Heartbeat.idle, not_unanswered_nil]

theorem not_awaiting (h : Tracks m history) (hl : m.state.isLive = false) :
    m.heartbeat.isAwaiting = false := by
  rw [Bool.eq_false_iff]
  intro ha
  have hb := (h.1 ha).1
  rw [hl] at hb
  exact Bool.noConfusion hb

theorem of_not_live (hl : next.state.isLive = false) (ha : next.heartbeat.isAwaiting = false) :
    Tracks next history := by
  simp [Tracks, hl, ha]

theorem keep (h : Tracks m history) (hb : next.heartbeat = m.heartbeat)
    (hl : next.state.isLive = m.state.isLive) (hh : e.acceptsHello = false) (ht : e.input ≠ .tick)
    (ha : e.input ≠ .heartbeatAck) : Tracks next (e :: history) := by
  unfold Tracks at h ⊢
  rw [hb, hl, unanswered_cons]
  simpa [hh, ht, ha, Exchange.Beats] using h

theorem handle (h : Tracks m history) (now : Instant) (roll : Nat) (input : Input) :
    Tracks (m.handle now roll input).1
      (⟨⟨m.state, input, (m.handle now roll input).1.state⟩, (m.handle now roll input).2⟩ ::
        history) := by
  cases input with
  | connect =>
    rw [handle_connect]
    split
    · next hd => exact of_not_live rfl (h.not_awaiting (by simp [hd, State.isLive]))
    · exact h.keep rfl rfl rfl (by simp) (by simp)
  | opened =>
    rw [handle_opened]
    split
    · next hc => exact of_not_live rfl (h.not_awaiting (by simp [hc, State.isLive]))
    · exact h.keep rfl rfl rfl (by simp) (by simp)
  | connectFailed reason =>
    rw [handle_connectFailed]
    split
    · exact of_not_live (not_isLive_connectionLost ..) (by simp)
    · exact h.keep rfl rfl rfl (by simp) (by simp)
  | hello interval =>
    rw [handle_hello]
    split
    · next hw =>
      have hn : ¬ Unanswered (⟨⟨m.state, .hello interval, (m.onHello interval).1.state⟩,
          (m.onHello interval).2⟩ :: history) := by
        simp [unanswered_cons, Turn.acceptsHello, hw]
      simp [Tracks, hn]
    · next hw => exact h.keep rfl rfl (by simp [Turn.acceptsHello, hw]) (by simp) (by simp)
  | dispatch event ready =>
    rw [handle_dispatch]
    split
    · next hl =>
      have hs := state_onDispatch m event ready hl
      exact h.keep (by simp) (by rw [hs, hl]; rfl) rfl (by simp) (by simp)
    · exact h.keep rfl rfl rfl (by simp) (by simp)
  | tick =>
    rw [handle_tick]
    split
    · next hl =>
      unfold onTick
      split
      · exact of_not_live (not_isLive_connectionLost ..) (by simp)
      · simp [Tracks, unanswered_cons, Exchange.Beats, Turn.acceptsHello, hl]
    · next hl =>
      have hl : m.state.isLive = false := by simpa using hl
      exact of_not_live hl (h.not_awaiting hl)
  | heartbeatRequested =>
    rw [handle_heartbeatRequested]
    exact h.keep rfl rfl rfl (by simp) (by simp)
  | heartbeatAck =>
    rw [handle_heartbeatAck]
    split
    · next hf =>
      have hl : m.state.isLive = false := by rw [hf]; rfl
      exact of_not_live hl (h.not_awaiting hl)
    · simp [Tracks, unanswered_cons, Exchange.Beats]
  | reconnectRequested =>
    rw [handle_reconnectRequested]
    split
    · exact of_not_live (not_isLive_connectionLost ..) (by simp)
    · exact h.keep rfl rfl rfl (by simp) (by simp)
  | invalidSession resumable =>
    rw [handle_invalidSession]
    split
    · exact of_not_live (not_isLive_connectionLost ..) (by simp)
    · exact h.keep rfl rfl rfl (by simp) (by simp)
  | closed info =>
    rw [handle_closed]
    split
    · exact of_not_live (not_isLive_connectionLost ..) (by simp)
    · exact h.keep rfl rfl rfl (by simp) (by simp)
  | reconnectDue =>
    rw [handle_reconnectDue]
    split
    · next hr => exact of_not_live rfl (h.not_awaiting (by simp [hr, State.isLive]))
    · exact h.keep rfl rfl rfl (by simp) (by simp)
  | shutdown =>
    rw [handle_shutdown]
    split
    · exact h.keep rfl rfl rfl (by simp) (by simp)
    · unfold onShutdown
      split
      · exact h.keep rfl rfl rfl (by simp) (by simp)
      · exact of_not_live rfl rfl

theorem listen (url : String) (backoff : Backoff) (maxFailures : Nat) (arrivals : List Arrival) :
    Tracks ((Machine.create url backoff maxFailures).listen arrivals).1
      ((Machine.create url backoff maxFailures).listen arrivals).2 :=
  listen_keeps (create url backoff maxFailures) (fun _ _ now roll i h => h.handle now roll i)
    arrivals

end Tracks

variable {m : Machine}

theorem tearsDown_of_awaiting (hl : m.state.isLive = true) (ha : m.heartbeat.isAwaiting = true)
    (now : Instant) (roll : Nat) : m.TearsDown (m.handle now roll .tick) := by
  rw [handle_tick, if_pos hl, onTick, if_pos ha,
    connectionLost_of_ne_fatal m roll none _ none (by decide)]
  unfold TearsDown
  split
  · exact ⟨List.prefix_append .., rfl⟩
  · exact ⟨List.prefix_append .., rfl⟩

theorem tick_of_not_awaiting (hl : m.state.isLive = true) (ha : m.heartbeat.isAwaiting = false)
    (now : Instant) (roll : Nat) :
    m.handle now roll .tick =
      ({ m with heartbeat := m.heartbeat.sent now }, [.heartbeat m.sequence]) := by
  simp [handle_tick, onTick, hl, ha]

theorem ack_of_not_awaiting (ha : m.heartbeat.isAwaiting = false) (now : Instant) (roll : Nat) :
    m.handle now roll .heartbeatAck = (m, []) := by
  rw [handle_heartbeatAck, acked_of_not_awaiting ha now]
  split <;> rfl

/-- A tick gives the connection up exactly if an earlier tick of the connection has sent a heartbeat
that is not acknowledged; else it sends one. Heartbeats that the server asks for do not count, an
acknowledgement of nothing is ignored, and nothing is outstanding when a connection begins. -/
theorem tick_tears_down_iff_unanswered (url : String) (backoff : Backoff) (maxFailures : Nat)
    (arrivals : List Arrival) (now : Instant) (roll : Nat) :
    let (m, history) := (create url backoff maxFailures).listen arrivals
    (m.state.isLive = true →
      (m.TearsDown (m.handle now roll .tick) ↔ Unanswered history) ∧
      (¬ Unanswered history → m.handle now roll .tick =
        ({ m with heartbeat := m.heartbeat.sent now }, [.heartbeat m.sequence]))) ∧
    m.handle now roll .heartbeatRequested =
      (m, if m.state.isLive then [.heartbeat m.sequence] else []) ∧
    (m.state.isLive = false ∨ ¬ Unanswered history →
      m.handle now roll .heartbeatAck = (m, [])) ∧
    (m.state.isLive = false → m.heartbeat.isAwaiting = false ∧
      ∀ interval, (m.handle now roll (.hello interval)).1.heartbeat.isAwaiting = false) := by
  dsimp only
  have h := Tracks.listen url backoff maxFailures arrivals
  generalize ((create url backoff maxFailures).listen arrivals).1 = m at h ⊢
  generalize ((create url backoff maxFailures).listen arrivals).2 = history at h ⊢
  have hn : m.state.isLive = false ∨ ¬ Unanswered history → m.heartbeat.isAwaiting = false := by
    rintro (hl | hu)
    · exact h.not_awaiting hl
    · exact Bool.eq_false_iff.2 fun ha => hu (h.1 ha).2
  have hbeat : m.state.isLive = true → ¬ Unanswered history → m.handle now roll .tick =
      ({ m with heartbeat := m.heartbeat.sent now }, [.heartbeat m.sequence]) :=
    fun hl hu => tick_of_not_awaiting hl (hn (.inr hu)) now roll
  refine ⟨fun hl => ⟨⟨fun hd => ?_, fun hu => ?_⟩, hbeat hl⟩,
    handle_heartbeatRequested m now roll, fun hu => ack_of_not_awaiting (hn hu) now roll,
    fun hl => ⟨hn (.inl hl), fun interval => ?_⟩⟩
  · refine Classical.byContradiction fun hu => ?_
    rw [TearsDown, hbeat hl hu] at hd
    simp at hd
  · exact tearsDown_of_awaiting hl (h.2 ⟨hl, hu⟩) now roll
  · rw [handle_hello]
    split
    · simp
    · exact hn (.inl hl)

/-- A session whose first heartbeat is acknowledged and whose second is not. The server also asks
for a heartbeat of its own. -/
def onceUnanswered : List Arrival :=
  [⟨⟨0⟩, 0, .connect⟩, ⟨⟨1⟩, 0, .opened⟩, ⟨⟨2⟩, 0, .hello (.ofSecs 40)⟩, ⟨⟨3⟩, 0, .tick⟩,
    ⟨⟨4⟩, 0, .heartbeatAck⟩, ⟨⟨5⟩, 0, .tick⟩, ⟨⟨6⟩, 0, .heartbeatRequested⟩]

/-- After its acknowledgement, after the heartbeats that follow, and once the connection is lost. -/
theorem onceUnanswered_tears_down :
    let fresh := create "wss://gateway.test" .standard 3
    let acked := fresh.listen (onceUnanswered.take 5)
    let late := fresh.listen onceUnanswered
    let lost := fresh.listen (onceUnanswered ++ [⟨⟨7⟩, 0, .tick⟩])
    (acked.1.state.isLive = true ∧ ¬ Unanswered acked.2 ∧
      (acked.1.handle ⟨7⟩ 0 .tick).2 = [.heartbeat none]) ∧
    (late.1.state.isLive = true ∧ Unanswered late.2 ∧
      late.1.TearsDown (late.1.handle ⟨7⟩ 0 .tick)) ∧
    (lost.1.state.isLive = false ∧ lost.1.handle ⟨8⟩ 0 .heartbeatAck = (lost.1, [])) := by
  have h := tick_tears_down_iff_unanswered "wss://gateway.test" .standard 3
  have hn : ¬ Unanswered
      ((create "wss://gateway.test" .standard 3).listen (onceUnanswered.take 5)).2 := by
    intro hu
    obtain hb | ha := (unanswered_cons.1 hu).2
    · cases hb.1
    · exact ha.1 rfl
  have hu : Unanswered ((create "wss://gateway.test" .standard 3).listen onceUnanswered).2 :=
    ⟨[_], _, _, rfl, ⟨rfl, none, List.mem_cons_self⟩, by simp⟩
  refine ⟨⟨rfl, hn, ?_⟩, ⟨rfl, hu, ?_⟩, rfl, ?_⟩
  · exact congrArg Prod.snd (((h (onceUnanswered.take 5) ⟨7⟩ 0).1 rfl).2 hn)
  · exact ((h onceUnanswered ⟨7⟩ 0).1 rfl).1.2 hu
  · exact (h (onceUnanswered ++ [⟨⟨7⟩, 0, .tick⟩]) ⟨8⟩ 0).2.2.1 (.inl rfl)

end Machine

end Parley.Gateway
