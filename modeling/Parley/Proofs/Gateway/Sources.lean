import Parley.Proofs.Gateway.Course

/-! Wherever a session waits, it has what can wake it in its state, and nothing left over from
another connection. Between two waits this need not be so: then it will be once the effects that
remain are performed. -/
namespace Parley.Gateway

structure Sources where
  inbox : Bool
  ticker : Bool
  reconnect : Bool
  held : Bool

namespace Sources

def bare : Sources := ⟨false, false, false, false⟩

/-- A session in this state can wait with these sources. -/
def Suit (w : Sources) : State → Prop
  | .connecting => False
  | .awaitingHello => w = ⟨true, false, false, false⟩
  | .identifying | .resuming | .ready =>
    w.inbox = true ∧ w.ticker = true ∧ w.reconnect = false
  | .reconnecting => w = ⟨false, false, true, false⟩
  | .disconnected | .fatal => w.inbox = false ∧ w.ticker = false ∧ w.held = false

/-- Once the effects are performed, the sources suit the state. Whatever waits for the transport's
answer, a disconnect aside, stands last. -/
def Lead (w : Sources) (s : State) : List Effect → Prop
  | [] => w.Suit s
  | .openUrl _ :: effects => effects = [] ∧ s = .connecting ∧ w = bare
  | .identify :: effects => effects = [] ∧ s.isLive = true ∧ w.Suit s
  | .resume _ _ :: effects => effects = [] ∧ s.isLive = true ∧ w.Suit s
  | .heartbeat _ :: effects => effects = [] ∧ s.isLive = true ∧ w.Suit s
  | .startHeartbeat _ :: effects => Lead { w with ticker := true } s effects
  | .stopHeartbeat :: effects => Lead { w with ticker := false } s effects
  | .closeTransport _ :: effects => Lead { w with inbox := false, held := false } s effects
  | .scheduleReconnect _ :: effects => Lead { w with reconnect := true } s effects
  | .deliver _ :: effects => Lead w s effects
  | .connected _ :: effects => Lead w s effects
  | .disconnected _ :: effects => Lead w s effects
  | .fatal _ :: effects => Lead w s effects

def Expect (w : Sources) (s : State) : Input → Prop
  | .connect => False
  | .opened => s = .connecting ∧ w = ⟨true, false, false, false⟩
  | .connectFailed _ => s = .connecting
  | .closed _ => s.isOpen = true
  | .reconnectDue => s = .reconnecting ∧ w = bare
  | .shutdown => s.isStopped = false
  | _ => w.Suit s

variable {w : Sources} {s : State}

/-- A handshake that is held back makes no difference to a live connection. -/
theorem Suit.of_live (h : w.Suit s) (hl : s.isLive = true) (held : Bool) :
    Suit { w with held } s := by
  obtain rfl | rfl | rfl := State.isLive_cases hl <;> exact h

theorem Suit.isLive_of_held (h : w.Suit s) (ht : w.held = true) : s.isLive = true := by
  cases s <;> simp_all [Suit, State.isLive]

theorem Suit.isOpen_of_inbox (h : w.Suit s) (ht : w.inbox = true) : s.isOpen = true := by
  cases s <;> simp_all [Suit, State.isOpen, State.isLive]

theorem Suit.reconnecting (h : w.Suit s) (ht : w.reconnect = true) (hs : s.isStopped = false) :
    s = .reconnecting ∧ w = ⟨false, false, true, false⟩ := by
  cases s <;> simp_all [Suit, State.isStopped]

/-- The effects of an input put the sources right again. -/
theorem Expect.lead {i : Input} {s' : State} {effects : List Effect} (h : w.Expect s i)
    (ht : Transition s i s' effects) : w.Lead s' effects := by
  cases ht with
  | stay hr =>
    cases i <;> simp_all [Expect, State.reactsTo, Lead]
  | connect url => exact h.elim
  | reconnect url => exact ⟨rfl, rfl, h.2⟩
  | opened => exact h.2
  | greet interval handshake =>
    obtain rfl : w = ⟨true, false, false, false⟩ := h
    cases handshake <;> simp [Lead, Suit, Handshake.effect, Handshake.state, State.isLive]
  | beat sequence hl hi =>
    obtain rfl | rfl := hi
    · exact ⟨rfl, hl, h⟩
    · exact ⟨rfl, hl, h⟩
  | connected event ready hs =>
    obtain rfl | rfl := hs
    · exact h
    · exact h
  | event event ready => exact h
  | lose i code delay hs hc => simp [Lead, Suit]
  | fail i code reason hs hc => simp [Lead, Suit]
  | shutdown code hs hc => simp [Lead, Suit]

end Sources

def Input.isFromServer : Input → Bool
  | .hello _ | .dispatch .. | .heartbeatRequested | .heartbeatAck | .reconnectRequested
  | .invalidSession _ => true
  | _ => false

theorem Input.isFromServer_ofMessage? {bytes : List UInt8} {i : Input}
    (h : Input.ofMessage? bytes = some i) : i.isFromServer = true := by
  unfold ofMessage? at h
  obtain ⟨f, -, h⟩ := Option.bind_eq_some_iff.1 h
  unfold ofFrame? at h
  split at h
  · split at h
    · simp at h
    · dsimp only at h
      split at h
      · obtain ⟨r, -, rfl⟩ := Option.map_eq_some_iff.1 h
        rfl
      · obtain ⟨⟩ := h; rfl
  · obtain ⟨⟩ := h; rfl
  · obtain ⟨⟩ := h; rfl
  · obtain ⟨⟩ := h; rfl
  · obtain ⟨⟩ := h; rfl
  · obtain ⟨r, -, rfl⟩ := Option.map_eq_some_iff.1 h
    rfl
  · simp at h

theorem Sources.Suit.expect {w : Sources} {s : State} {i : Input} (h : w.Suit s)
    (hi : i.isFromServer = true) : w.Expect s i := by
  cases i <;> first | exact h | exact nomatch hi

namespace Session

def sources (s : Session) : Sources :=
  ⟨s.inbox.isSome, s.ticker.isSome, s.reconnectAt.isSome, s.held.isSome⟩

inductive Steady (s : Session) : Prop
  | performing (hd : s.doing = .working) (hi : s.inputs = [])
      (h : s.sources.Lead s.state s.effects)
  | applying (i : Input) (hd : s.doing = .working) (he : s.effects = []) (hi : s.inputs = [i])
      (h : s.sources.Expect s.state i)
  | connecting (url : String) (hd : s.doing = .connecting url) (he : s.effects = [])
      (hi : s.inputs = []) (hs : s.state = .connecting) (h : s.sources = .bare)
  | sending (frame : Frame) (hd : s.doing = .sending frame) (he : s.effects = [])
      (hi : s.inputs = []) (hl : s.state.isLive = true) (h : s.sources.Suit s.state)
  | paused (hd : s.doing = .delivering ∨ ∃ code, s.doing = .disconnecting code)
      (hi : s.inputs = []) (h : s.sources.Lead s.state s.effects)
  | listening (hd : s.doing = .listening) (he : s.effects = []) (hi : s.inputs = [])
      (hs : s.state.isStopped = false) (h : s.sources.Suit s.state)
  | ended (hd : s.doing = .draining ∨ s.doing = .stopped) (he : s.effects = [])
      (hi : s.inputs = []) (hs : s.state.isStopped = true) (h : s.sources.Suit s.state)
  | crashed (hd : s.doing = .crashed)

variable {s : Session} {x : Surroundings} {w : Wake}

theorem steady_start (o : Options) (mode : DispatchMode) (x : Surroundings) :
    (start o mode x).Steady :=
  .performing rfl rfl ⟨rfl, rfl, rfl⟩

theorem steady_push (hd : s.doing = .working) (hi : s.inputs = [])
    (h : s.sources.Lead s.state s.effects) (d : Delivery) : (s.push d).Steady := by
  unfold push
  dsimp only
  split
  · exact .paused (.inl rfl) hi h
  · exact .performing hd hi h

theorem steady_deliver (hd : s.doing = .working) (hi : s.inputs = [])
    (h : s.sources.Lead s.state s.effects) (e : Event) : (s.deliver e).Steady := by
  unfold deliver
  split
  · exact steady_push hd hi h _
  · dsimp only
    split
    · exact steady_push (s := { s with dedupe := (s.dedupe.tryAdd _).1 }) hd hi h _
    · exact .performing hd hi h

theorem steady_send (hi : s.inputs = []) (he : s.effects = []) (hl : s.state.isLive = true)
    (h : s.sources.Suit s.state) (frame : Frame) : (s.send frame).Steady :=
  .sending frame rfl he hi hl h

theorem steady_shake (hd : s.doing = .working) (hi : s.inputs = []) (he : s.effects = [])
    (hl : s.state.isLive = true) (h : s.sources.Suit s.state) (x : Surroundings)
    (handshake : Handshake) : (s.shake x handshake).Steady := by
  unfold shake
  split
  · exact steady_send hi he hl h _
  · refine .performing hd hi ?_
    dsimp only
    rw [he]
    exact h.of_live hl true

theorem steady_startHeartbeat {interval : Duration} (hd : s.doing = .working) (hi : s.inputs = [])
    (h : s.sources.Lead s.state (.startHeartbeat interval :: s.effects)) (x : Surroundings) :
    (s.perform x (.startHeartbeat interval)).Steady := by
  unfold perform
  dsimp only
  split
  · exact .crashed rfl
  · exact .performing hd hi h

theorem steady_perform {e : Effect} (hd : s.doing = .working) (hi : s.inputs = [])
    (h : s.sources.Lead s.state (e :: s.effects)) (x : Surroundings) : (s.perform x e).Steady := by
  cases e with
  | openUrl url => exact .connecting url rfl h.1 hi h.2.1 h.2.2
  | identify => exact steady_shake hd hi h.1 h.2.1 h.2.2 x .identify
  | resume id sequence => exact steady_shake hd hi h.1 h.2.1 h.2.2 x (.resume id sequence)
  | heartbeat sequence => exact steady_send hi h.1 h.2.1 h.2.2 _
  | startHeartbeat interval => exact steady_startHeartbeat hd hi h x
  | stopHeartbeat => exact .performing hd hi h
  | closeTransport code => exact .paused (.inr ⟨code, rfl⟩) hi h
  | scheduleReconnect delay => exact .performing hd hi h
  | deliver event => exact steady_deliver hd hi h event
  | connected resumed => exact steady_push hd hi h _
  | disconnected cause => exact steady_push hd hi h _
  | fatal reason => exact .performing hd hi h

theorem source?_cases (h : s.source? x = some w) :
    w = .shutdown ∨ (w = .reconnectDue ∧ s.sources.reconnect = true) ∨
      (w = .tick ∧ s.sources.ticker = true) ∨ (w = .throttleClear ∧ ∃ h, s.held = some h) ∨
      (w = .inbound ∧ ∃ i, s.inbox = some i ∧ i.isReadable = true) := by
  unfold source? at h
  split at h
  · exact .inl (Option.some.inj h).symm
  split at h
  · next hr =>
    obtain ⟨t, ht, -⟩ := (Option.any_eq_true _ _).1 hr
    exact .inr (.inl ⟨(Option.some.inj h).symm, by simp [sources, ht]⟩)
  split at h
  · next hr =>
    obtain ⟨t, ht, -⟩ := (Option.any_eq_true _ _).1 hr
    exact .inr (.inr (.inl ⟨(Option.some.inj h).symm, by simp [sources, ht]⟩))
  split at h
  · next hr =>
    rw [Bool.and_eq_true] at hr
    exact .inr (.inr (.inr (.inl ⟨(Option.some.inj h).symm, Option.isSome_iff_exists.1 hr.1⟩)))
  split at h
  · next hr =>
    exact .inr (.inr (.inr (.inr ⟨(Option.some.inj h).symm, (Option.any_eq_true _ _).1 hr⟩)))
  · simp at h

/-- A session that listens takes up something from outside. -/
theorem source?_ne {w' : Wake} (h : s.source? x = some w)
    (hw : w' = .proceed ∨ w' = .opened ∨ w' = .drained) : w ≠ w' := by
  obtain rfl | ⟨rfl, -⟩ | ⟨rfl, -⟩ | ⟨rfl, -⟩ | ⟨rfl, -⟩ := source?_cases h <;>
    obtain rfl | rfl | rfl := hw <;> exact nofun

theorem Allowed.doing_proceed (h : s.Allowed x .proceed) : s.doing = .working := by
  cases h with
  | proceed hd => exact hd
  | source hd hs => exact absurd rfl (source?_ne hs (.inl rfl))

theorem Allowed.doing_opened (h : s.Allowed x .opened) : ∃ url, s.doing = .connecting url := by
  cases h with
  | opened url hd => exact ⟨url, hd⟩
  | source hd hs => exact absurd rfl (source?_ne hs (.inr (.inl rfl)))

theorem Allowed.isDrained (h : s.Allowed x .drained) : s.dispatch.isDrained = true := by
  cases h with
  | drained hd hq => exact hq
  | source hd hs => exact absurd rfl (source?_ne hs (.inr (.inr rfl)))

theorem steady_resume (he : s.effects = []) (hi : s.inputs = []) {i : Input}
    (h : s.sources.Expect s.state i) : (s.resume [i]).Steady :=
  .applying i rfl he (by simp [resume, hi]) h

theorem steady_closed (he : s.effects = []) (hi : s.inputs = []) (ho : s.state.isOpen = true)
    (info : CloseInfo) : (resume { s with inbox := none } [.closed info]).Steady :=
  steady_resume (s := { s with inbox := none }) he hi ho

theorem steady_read (he : s.effects = []) (hi : s.inputs = []) (h : s.sources.Suit s.state)
    {i : Inbox} (hb : s.inbox = some i) (hr : i.isReadable = true) : s.read.Steady := by
  have ho : s.state.isOpen = true := h.isOpen_of_inbox (by simp [sources, hb])
  unfold read
  rw [hb]
  dsimp only
  split
  · next bytes unread _ =>
    have hs : Sources.Suit (sources { s with inbox := some { i with unread } }) s.state := by
      simpa [sources, hb] using h
    cases hm : Input.ofMessage? bytes with
    | none =>
      refine .performing rfl (by simp [resume, hi]) ?_
      simp only [resume, he]
      exact hs
    | some input =>
      have hf := Input.isFromServer_ofMessage? hm
      exact steady_resume (s := { s with inbox := some { i with unread } }) he hi (hs.expect hf)
  · exact steady_closed he hi ho _
  · next hu =>
    have hended : i.ended = true := by simpa [Inbox.isReadable, hu] using hr
    rw [if_pos hended]
    exact steady_closed he hi ho _

theorem steady_proceed (hd : s.doing = .working) (hi : s.inputs = [])
    (h : s.sources.Lead s.state s.effects) (x : Surroundings) : (s.proceed x).Steady := by
  unfold proceed
  split
  · next e effects he =>
    rw [he] at h
    exact steady_perform (s := { s with effects }) hd hi h x
  · next he hi' =>
    rw [hi] at hi'
    exact nomatch hi'
  · next he _ =>
    rw [he] at h
    cases hs : s.state.isStopped
    · exact .listening (by simp) he hi hs h
    · exact .ended (.inl (by simp)) he hi hs h

theorem steady_apply {i : Input} (hd : s.doing = .working) (he : s.effects = [])
    (hi : s.inputs = [i]) (h : s.sources.Expect s.state i) (x : Surroundings) :
    (s.proceed x).Steady := by
  unfold proceed
  rw [he, hi]
  exact .performing hd rfl (h.lead (s.machine.transition x.now x.roll i))

theorem steady_listen (he : s.effects = []) (hi : s.inputs = []) (hs : s.state.isStopped = false)
    (h : s.sources.Suit s.state) (hw : s.source? x = some w) : (s.step x w).Steady := by
  obtain rfl | ⟨rfl, hr⟩ | ⟨rfl, ht⟩ | ⟨rfl, handshake, hh⟩ | ⟨rfl, i, hb, hr⟩ :=
    source?_cases hw
  · exact steady_resume he hi hs
  · obtain ⟨hs, hw⟩ := h.reconnecting hr hs
    refine steady_resume (s := { s with reconnectAt := none }) he hi ⟨hs, ?_⟩
    simp_all [sources, Sources.bare]
  · have ht : s.ticker.isSome = true := ht
    refine steady_resume (s := { s with ticker := s.ticker.map fun t => t.next x.now }) he hi ?_
    simp only [Sources.Expect, sources, Option.isSome_map]
    exact h
  · have hl := h.isLive_of_held (by simp [sources, hh])
    simp only [step, hh]
    exact steady_send (s := { s with held := none }) hi he hl (h.of_live hl false) _
  · exact steady_read he hi h hb hr

/-! What is known of a session by what its task does. -/

theorem Steady.of_working (h : s.Steady) (hd : s.doing = .working) :
    (s.inputs = [] ∧ s.sources.Lead s.state s.effects) ∨
      ∃ i, s.effects = [] ∧ s.inputs = [i] ∧ s.sources.Expect s.state i := by
  cases h with
  | performing hd hi h => exact .inl ⟨hi, h⟩
  | applying i hd he hi h => exact .inr ⟨i, he, hi, h⟩
  | _ => simp_all

theorem Steady.of_connecting (h : s.Steady) {url : String} (hd : s.doing = .connecting url) :
    s.effects = [] ∧ s.inputs = [] ∧ s.state = .connecting ∧ s.sources = .bare := by
  cases h with
  | connecting _ _ he hi hs h => exact ⟨he, hi, hs, h⟩
  | _ => simp_all

theorem Steady.of_sending (h : s.Steady) {frame : Frame} (hd : s.doing = .sending frame) :
    s.effects = [] ∧ s.inputs = [] ∧ s.state.isLive = true ∧ s.sources.Suit s.state := by
  cases h with
  | sending _ _ he hi hl h => exact ⟨he, hi, hl, h⟩
  | _ => simp_all

theorem Steady.of_paused (h : s.Steady)
    (hd : s.doing = .delivering ∨ ∃ code, s.doing = .disconnecting code) :
    s.inputs = [] ∧ s.sources.Lead s.state s.effects := by
  cases h with
  | paused _ hi h => exact ⟨hi, h⟩
  | ended hd' => obtain hd | ⟨code, hd⟩ := hd <;> simp_all
  | _ => simp_all

theorem Steady.of_listening (h : s.Steady) (hd : s.doing = .listening) :
    s.effects = [] ∧ s.inputs = [] ∧ s.state.isStopped = false ∧ s.sources.Suit s.state := by
  cases h with
  | listening _ he hi hs h => exact ⟨he, hi, hs, h⟩
  | _ => simp_all

theorem Steady.of_ended (h : s.Steady) (hd : s.doing = .draining ∨ s.doing = .stopped) :
    s.effects = [] ∧ s.inputs = [] ∧ s.state.isStopped = true ∧ s.sources.Suit s.state := by
  cases h with
  | ended _ he hi hs h => exact ⟨he, hi, hs, h⟩
  | paused hd' => obtain hd | hd := hd <;> simp_all
  | _ => simp_all

theorem Steady.step (h : s.Steady) (ha : s.Allowed x w) : (s.step x w).Steady := by
  have hpaused (hd : s.doing = .delivering ∨ ∃ code, s.doing = .disconnecting code) :
      (s.resume []).Steady := by
    obtain ⟨hi, h⟩ := h.of_paused hd
    exact .performing rfl (by simp [resume, hi]) h
  cases ha with
  | proceed hd =>
    obtain ⟨hi, h⟩ | ⟨i, he, hi, h⟩ := h.of_working hd
    · exact steady_proceed hd hi h x
    · exact steady_apply hd he hi h x
  | opened url hd =>
    obtain ⟨he, hi, hs, h⟩ := h.of_connecting hd
    refine steady_resume (s := { s with inbox := some .empty }) he hi ⟨hs, ?_⟩
    simp_all [sources, Sources.bare]
  | refused url e hd =>
    obtain ⟨he, hi, hs, -⟩ := h.of_connecting hd
    exact steady_resume he hi hs
  | left url hd hl =>
    obtain ⟨he, hi, hs, -⟩ := h.of_connecting hd
    exact steady_resume he hi (by rw [hs]; rfl)
  | sent frame hd =>
    obtain ⟨he, hi, -, h⟩ := h.of_sending hd
    refine .performing rfl (by simp [Session.step, resume, hi]) ?_
    simp only [Session.step, resume, he]
    exact h
  | unsent frame e hd =>
    obtain ⟨he, hi, hl, -⟩ := h.of_sending hd
    exact steady_resume he hi (State.isOpen_of_isLive hl)
  | disconnected code hd => exact hpaused (.inr ⟨code, hd⟩)
  | delivered hd hp => exact hpaused (.inl hd)
  | source hd hw =>
    obtain ⟨he, hi, hs, h⟩ := h.of_listening hd
    exact steady_listen he hi hs h hw
  | drained hd hq =>
    obtain ⟨he, hi, hs, h⟩ := h.of_ended (.inl hd)
    exact .ended (.inr rfl) he hi hs h

/-- Only what the task does and which sources there are matters. -/
theorem Steady.congr {s' : Session} (h : s.Steady) (hd : s'.doing = s.doing)
    (he : s'.effects = s.effects) (hi : s'.inputs = s.inputs) (hs : s'.state = s.state)
    (hw : s'.sources = s.sources) : s'.Steady := by
  have hsuit : s.sources.Suit s.state → s'.sources.Suit s'.state := by rw [hs, hw]; exact id
  have hlead : s.sources.Lead s.state s.effects → s'.sources.Lead s'.state s'.effects := by
    rw [hs, hw, he]
    exact id
  cases h with
  | performing h₁ h₂ h => exact .performing (hd.trans h₁) (hi.trans h₂) (hlead h)
  | applying i h₁ h₂ h₃ h =>
    exact .applying i (hd.trans h₁) (he.trans h₂) (hi.trans h₃) (by rwa [hw, hs])
  | connecting url h₁ h₂ h₃ h₄ h =>
    exact .connecting url (hd.trans h₁) (he.trans h₂) (hi.trans h₃) (hs.trans h₄) (hw.trans h)
  | sending frame h₁ h₂ h₃ h₄ h =>
    exact .sending frame (hd.trans h₁) (he.trans h₂) (hi.trans h₃) (by rwa [hs]) (hsuit h)
  | paused h₁ h₂ h => exact .paused (by rwa [hd]) (hi.trans h₂) (hlead h)
  | listening h₁ h₂ h₃ h₄ h =>
    exact .listening (hd.trans h₁) (he.trans h₂) (hi.trans h₃) (by rwa [hs]) (hsuit h)
  | ended h₁ h₂ h₃ h₄ h =>
    exact .ended (by rwa [hd]) (he.trans h₂) (hi.trans h₃) (by rwa [hs]) (hsuit h)
  | crashed h => exact .crashed (hd.trans h)

/-- The loop is about to wait for the next input, or waits for it. -/
def isAtHead (s : Session) : Bool :=
  s.doing == .listening || s.doing == .working && s.effects.isEmpty && s.inputs.isEmpty

theorem Steady.suit (h : s.Steady) (hh : s.isAtHead = true) : s.sources.Suit s.state := by
  cases h with
  | performing hd hi h =>
    have he : s.effects = [] := by simpa [isAtHead, hd, hi] using hh
    rwa [he] at h
  | applying i hd he hi h => simp [isAtHead, hd, hi] at hh
  | connecting url hd he hi hs h => simp [isAtHead, hd] at hh
  | sending frame hd he hi hl h => exact h
  | paused hd hi h => obtain hd | ⟨code, hd⟩ := hd <;> simp [isAtHead, hd] at hh
  | listening hd he hi hs h => exact h
  | ended hd he hi hs h => exact h
  | crashed hd => simp [isAtHead, hd] at hh

end Session

namespace Course

theorem steady_next {c : Course} (h : c.session.Steady) (a : Act) : (c.next a).session.Steady := by
  cases a with
  | wake x w => exact next_wake (P := fun c => c.session.Steady) h h.step
  | receive m => exact h.congr rfl rfl rfl rfl (by simp [next, Session.receive, Session.sources])
  | endInbound =>
    exact h.congr rfl rfl rfl rfl (by simp [next, Session.endInbound, Session.sources])
  | leave => exact h.congr rfl rfl rfl rfl rfl
  | call =>
    exact next_call (P := fun c => c.session.Steady) h fun d dispatch _ =>
      h.congr rfl rfl rfl rfl rfl
  | finish => exact h.congr rfl rfl rfl rfl rfl

theorem steady_run (o : Options) (mode : DispatchMode) (x : Surroundings) (acts : List Act) :
    ((start o mode x).run acts).session.Steady :=
  run_keeps (P := fun c => c.session.Steady) _ acts (Session.steady_start o mode x)
    fun a _ _ h => steady_next h a

/-- At the head of its loop a session never waits for nothing, and listens to nothing that belongs
to a connection it has given up. -/
theorem sources_at_head (o : Options) (mode : DispatchMode) (x : Surroundings) (acts : List Act) :
    let s := ((start o mode x).run acts).session
    s.isAtHead = true →
      s.state ≠ .connecting ∧
      (s.state = .reconnecting →
        s.reconnectAt.isSome = true ∧ s.inbox = none ∧ s.ticker = none ∧ s.held = none) ∧
      (s.state.isOpen = true → s.inbox.isSome = true ∧ s.reconnectAt = none) ∧
      (s.ticker.isSome = true ↔ s.state.isLive = true) ∧
      (s.held.isSome = true → s.state.isLive = true) := by
  intro s hh
  have h : s.sources.Suit s.state := (steady_run o mode x acts).suit hh
  revert h
  cases s.state <;> simp_all [Session.sources, Sources.Suit, State.isOpen, State.isLive]

def dropped (x : Surroundings) : List Act :=
  greeting x ++ .endInbound ::
    turns x (.inbound :: List.replicate 4 .proceed ++ [.disconnected, .proceed, .proceed])

theorem sources_at_head_of_dropped :
    let x := Rehearsal.Play.surroundingsAt 0 false
    let fresh := start (.create "wss://gateway.test" "token" .unprivileged) .unbounded x
    let held := (fresh.run (greeting x)).session
    let lost := (fresh.run (dropped x)).session
    (held.isAtHead = true ∧ held.state = .identifying ∧ held.held = some .identify ∧
      held.inbox.isSome = true ∧ held.reconnectAt = none) ∧
    (lost.isAtHead = true ∧ lost.state = .reconnecting ∧ lost.reconnectAt.isSome = true ∧
      lost.inbox = none ∧ lost.ticker = none ∧ lost.held = none) := by
  have hh := sources_at_head (.create "wss://gateway.test" "token" .unprivileged) .unbounded
    (Rehearsal.Play.surroundingsAt 0 false) (greeting (Rehearsal.Play.surroundingsAt 0 false))
  have hl := sources_at_head (.create "wss://gateway.test" "token" .unprivileged) .unbounded
    (Rehearsal.Play.surroundingsAt 0 false) (dropped (Rehearsal.Play.surroundingsAt 0 false))
  dsimp only at hh hl ⊢
  refine ⟨⟨by decide +kernel, by decide +kernel, by decide +kernel, ?_⟩,
    by decide +kernel, by decide +kernel, ?_⟩
  · exact (hh (by decide +kernel)).2.2.1 (by decide +kernel)
  · exact (hl (by decide +kernel)).2.1 (by decide +kernel)

end Course

end Parley.Gateway
