import Mathlib.Data.List.Induction
import Parley.Proofs.Gateway.Pending

/-! When a user's command is written to the connection. The session has to be ready when the user comes
to it, but a command that a limit holds back after that is written once the limit lets it go, whatever
has become of the session and of its connection. -/
namespace Parley.Gateway

variable {s : Session} {x : Surroundings}

namespace Errand

variable {e : Errand} {frame : Frame}

def isEarly (e : Errand) : Bool := e.progress = .begun || e.progress = .waiting

theorem goOn_session (e : Errand) (s : Session) (x : Surroundings) :
    (e.goOn s x).2 = s ∨ (e.goOn s x).2 = s.leave := by
  unfold goOn begin
  split
  · cases e.command with
    | shutdown => exact Or.inr rfl
    | _ => exact Or.inl rfl
  · exact Or.inl rfl
  · exact Or.inl rfl
  · exact Or.inl rfl
  · exact Or.inl rfl

theorem readiness_eq_ready : s.readiness? = some none ↔ s.state = .ready := by
  unfold Session.readiness?
  cases s.state <;> simp

/-- What becomes of a frame that nothing but a limit can hold back. -/
def afterThrottle (x : Surroundings) (frame : Frame) : Progress :=
  if frame.op.isLimited && !x.isClear then .throttled frame else .writing frame

def waitingFor (c : Command) : Errand := ⟨c, .waiting⟩

theorem look_frame {c : Command} {e' : Errand} (h : (waitingFor c).look? s x = some e')
    (hp : e'.progress = .throttled frame ∨ e'.progress = .writing frame) :
    c = .send frame ∧ s.state = .ready ∧ e'.progress = afterThrottle x frame := by
  have hdone {v : Verdict} (he : e'.progress = .done v) : False := by
    rw [he] at hp
    rcases hp with hp | hp <;> cases hp
  unfold look? waitingFor at h
  cases c with
  | send other =>
    obtain ⟨readiness, hr, rfl⟩ := Option.map_eq_some_iff.1 h
    cases readiness with
    | some failure => exact (hdone rfl).elim
    | none =>
      have hframe : other = frame := by
        simp only [write] at hp
        split_ifs at hp <;> simpa using hp
      subst hframe
      exact ⟨rfl, readiness_eq_ready.1 hr, rfl⟩
  | waitReady =>
    obtain ⟨failure, -, rfl⟩ := Option.map_eq_some_iff.1 h
    exact (hdone rfl).elim
  | waitClosed =>
    dsimp only at h
    split_ifs at h
    obtain rfl := Option.some.inj h
    exact (hdone rfl).elim
  | shutdown =>
    dsimp only at h
    split_ifs at h
    obtain rfl := Option.some.inj h
    exact (hdone rfl).elim

theorem goOn_begun {c : Command} (hc : c ≠ .shutdown) (s : Session) (x : Surroundings) :
    (goOn ⟨c, .begun⟩ s x).1 = ((waitingFor c).look? s x).getD (waitingFor c) := by
  cases c with
  | shutdown => exact absurd rfl hc
  | _ => simp [goOn, begin, waitingFor]

/-- An errand that comes to the session, or waits for it, is sent on in a session that is ready. -/
theorem goOn_early (he : e.isEarly = true)
    (hp : (e.goOn s x).1.progress = .throttled frame ∨ (e.goOn s x).1.progress = .writing frame) :
    e.command = .send frame ∧ s.state = .ready ∧
      (e.goOn s x).1.progress = afterThrottle x frame := by
  obtain ⟨c, progress⟩ := e
  have hlook {s : Session} (hp : (((waitingFor c).look? s x).getD (waitingFor c)).progress =
        .throttled frame ∨
      (((waitingFor c).look? s x).getD (waitingFor c)).progress = .writing frame) :
      c = .send frame ∧ s.state = .ready ∧
        (((waitingFor c).look? s x).getD (waitingFor c)).progress = afterThrottle x frame := by
    cases hl : (waitingFor c).look? s x with
    | some e' =>
      rw [hl] at hp
      exact look_frame hl hp
    | none =>
      rw [hl] at hp
      rcases hp with hp | hp <;> cases hp
  cases progress with
  | begun =>
    by_cases hc : c = .shutdown
    · subst hc
      cases hl : s.isLeaving with
      | true =>
        have hg : (goOn ⟨.shutdown, .begun⟩ s x).1 = ⟨.shutdown, .done .left⟩ := by
          simp [goOn, begin, hl, finish]
        rw [hg] at hp
        rcases hp with hp | hp <;> cases hp
      | false =>
        have hg : (goOn ⟨.shutdown, .begun⟩ s x).1 =
            ((waitingFor .shutdown).look? s.leave x).getD (waitingFor .shutdown) := by
          simp [goOn, begin, hl, waitingFor]
        rw [hg] at hp
        exact absurd (hlook hp).1 (by simp)
    · rw [goOn_begun hc] at hp ⊢
      exact hlook hp
  | waiting => exact hlook hp
  | throttled other => simp [isEarly] at he
  | writing other => simp [isEarly] at he
  | done v => simp [isEarly] at he

theorem goOn_ready (he : e.isEarly = true) (hc : e.command = .send frame)
    (hs : s.state = .ready) : (e.goOn s x).1.progress = afterThrottle x frame := by
  obtain ⟨c, progress⟩ := e
  obtain rfl : c = .send frame := hc
  have hlook : (((waitingFor (.send frame)).look? s x).getD (waitingFor (.send frame))).progress =
      afterThrottle x frame := by
    simp [waitingFor, look?, readiness_eq_ready.2 hs, write, afterThrottle]
  cases progress with
  | begun =>
    rw [goOn_begun (by simp)]
    exact hlook
  | waiting => exact hlook
  | throttled other => simp [isEarly] at he
  | writing other => simp [isEarly] at he
  | done v => simp [isEarly] at he

theorem goOn_command (e : Errand) (s : Session) (x : Surroundings) :
    (e.goOn s x).1.command = e.command := by
  have hlook (e : Errand) (s : Session) : ((e.look? s x).getD e).command = e.command := by
    cases hl : e.look? s x with
    | none => rfl
    | some e' =>
      unfold look? at hl
      split at hl
      · obtain ⟨readiness, -, rfl⟩ := Option.map_eq_some_iff.1 hl
        cases readiness <;> rfl
      · obtain ⟨readiness, -, rfl⟩ := Option.map_eq_some_iff.1 hl
        rfl
      · split_ifs at hl
        obtain rfl := Option.some.inj hl
        rfl
      · split_ifs at hl
        obtain rfl := Option.some.inj hl
        rfl
  have hbegin : (e.begin s).1.command = e.command := by
    unfold begin
    split
    · dsimp only
      split <;> rfl
    · rfl
  unfold goOn
  split
  · dsimp only
    split
    · exact (hlook _ _).trans hbegin
    · exact hbegin
  · exact hlook e s
  · rfl
  · rfl
  · rfl

/-- A frame that is held back is written when the limits let it go, whatever the session. -/
theorem goOn_throttled (h : e.progress = .throttled frame) (s : Session) (x : Surroundings) :
    (e.goOn s x).1.progress = afterThrottle x frame := by
  simp [goOn, h, write, afterThrottle]

theorem afterThrottle_eq_writing {other : Frame} :
    afterThrottle x other = .writing frame ↔
      other = frame ∧ (frame.op.isLimited = true → x.isClear = true) := by
  unfold afterThrottle
  constructor
  · intro h
    split_ifs at h with hl
    obtain rfl := Progress.writing.inj h
    exact ⟨rfl, by simpa using hl⟩
  · rintro ⟨rfl, hl⟩
    rw [if_neg (by simpa using hl)]

theorem afterThrottle_eq_throttled {other : Frame} :
    afterThrottle x other = .throttled frame ↔
      other = frame ∧ frame.op.isLimited = true ∧ x.isClear = false := by
  unfold afterThrottle
  constructor
  · intro h
    split_ifs at h with hl
    obtain rfl := Progress.throttled.inj h
    exact ⟨rfl, by simpa using hl⟩
  · rintro ⟨rfl, hl⟩
    rw [if_pos (by simpa using hl)]

end Errand

structure Office where
  course : Course
  errands : Nat → Option Errand

namespace Office

inductive Act where
  | session (a : Course.Act)
  | ask (id : Nat) (c : Command)
  | go (id : Nat) (x : Surroundings)
  | written (id : Nat) (failure : Option Error)

def start (o : Options) (mode : DispatchMode) (x : Surroundings) : Office :=
  ⟨.start o mode x, fun _ => none⟩

def setErrand (y : Office) (id : Nat) (e : Errand) : Office :=
  { y with errands := fun other => if other = id then some e else y.errands other }

def next (y : Office) : Act → Office
  | .session a => { y with course := y.course.next a }
  | .ask id c => if (y.errands id).isSome then y else y.setErrand id (.create c)
  | .go id x =>
    match y.errands id with
    | some e =>
      let (e, session) := e.goOn y.course.session x
      { y with course := { y.course with session } }.setErrand id e
    | none => y
  | .written id failure =>
    match y.errands id with
    | some e =>
      match e.progress with
      | .writing _ => y.setErrand id (e.written failure)
      | _ => y
    | none => y

def run (y : Office) (acts : List Act) : Office := acts.foldl next y

def state (y : Office) : State := y.course.session.state

/-- In this turn the errand hands the frame to the transport. -/
def Writes (y : Office) (id : Nat) (x : Surroundings) (frame : Frame) : Prop :=
  ∃ e, y.errands id = some e ∧ (∀ f, e.progress ≠ .writing f) ∧
    (e.goOn y.course.session x).1.progress = .writing frame

variable {y : Office} {id : Nat} {e : Errand} {frame : Frame} {a : Act}

theorem next_go (h : y.errands id = some e) (x : Surroundings) :
    y.next (.go id x) = setErrand
      { y with course := { y.course with session := (e.goOn y.course.session x).2 } } id
      (e.goOn y.course.session x).1 := by
  simp only [next, h]

theorem next_written (h : y.errands id = some e) (hp : e.progress = .writing frame)
    (failure : Option Error) :
    y.next (.written id failure) = y.setErrand id (e.written failure) := by
  simp only [next, h, hp]

/-- Errands do nothing to a session but ask it to end. -/
theorem course_next (y : Office) (a : Act) :
    ∃ acts, (y.next a).course = y.course.run acts := by
  cases a with
  | session a => exact ⟨[a], rfl⟩
  | ask id c =>
    refine ⟨[], ?_⟩
    simp only [next]
    split_ifs <;> rfl
  | go id x =>
    simp only [next]
    split
    · next e _ =>
      rcases e.goOn_session y.course.session x with hs | hs
      · exact ⟨[], by simp [setErrand, hs]⟩
      · exact ⟨[.leave], by simp [setErrand, hs, Course.next]⟩
    · exact ⟨[], rfl⟩
  | written id failure =>
    refine ⟨[], ?_⟩
    simp only [next]
    split
    · split <;> rfl
    · rfl

theorem course_run (y : Office) (acts : List Act) :
    ∃ acts', (y.run acts).course = y.course.run acts' := by
  induction acts generalizing y with
  | nil => exact ⟨[], rfl⟩
  | cons a acts ih =>
    obtain ⟨first, hf⟩ := y.course_next a
    obtain ⟨rest, hr⟩ := ih (y.next a)
    refine ⟨first ++ rest, ?_⟩
    rw [hf] at hr
    simpa [run, Course.run] using hr

theorem errands_next (h : (y.next a).errands id = some e) :
    y.errands id = some e ∨ e.progress = .begun ∨ (∃ v, e.progress = .done v) ∨
      ∃ x e', a = .go id x ∧ y.errands id = some e' ∧ (e'.goOn y.course.session x).1 = e := by
  have hset {other : Nat} {e' : Errand} (h : (y.setErrand other e').errands id = some e) :
      y.errands id = some e ∨ other = id ∧ e' = e := by
    simp only [setErrand] at h
    split_ifs at h with hid
    · exact Or.inr ⟨hid.symm, Option.some.inj h⟩
    · exact Or.inl h
  cases a with
  | session a => exact Or.inl h
  | ask other c =>
    simp only [next] at h
    split_ifs at h
    · exact Or.inl h
    · obtain h | ⟨rfl, rfl⟩ := hset h
      · exact Or.inl h
      · exact Or.inr (Or.inl rfl)
  | go other x =>
    simp only [next] at h
    split at h
    · next e' he =>
      have h : (y.setErrand other (e'.goOn y.course.session x).1).errands id = some e := h
      obtain h | ⟨rfl, hg⟩ := hset h
      · exact Or.inl h
      · exact Or.inr (Or.inr (Or.inr ⟨x, e', rfl, he, hg⟩))
    · exact Or.inl h
  | written other failure =>
    simp only [next] at h
    split at h
    · split at h
      · obtain h | ⟨-, rfl⟩ := hset h
        · exact Or.inl h
        · exact Or.inr (Or.inr (Or.inl ⟨_, rfl⟩))
      · exact Or.inl h
    · exact Or.inl h

/-- A frame is held back from a turn on in which its session was ready. -/
theorem throttled_next (h : (y.next a).errands id = some e) (hp : e.progress = .throttled frame) :
    (∃ e', y.errands id = some e' ∧ e'.progress = .throttled frame ∧ e'.command = e.command) ∨
      ∃ x, a = .go id x ∧ e.command = .send frame ∧ y.state = .ready ∧
        frame.op.isLimited = true ∧ x.isClear = false := by
  obtain h | hb | ⟨v, hv⟩ | ⟨x, e', rfl, he, rfl⟩ := errands_next h
  · exact Or.inl ⟨e, h, hp, rfl⟩
  · rw [hb] at hp
    cases hp
  · rw [hv] at hp
    cases hp
  rw [Errand.goOn_command]
  cases hearly : e'.isEarly with
  | true =>
    obtain ⟨hc, hr, ha⟩ := Errand.goOn_early hearly (Or.inl hp)
    rw [hp] at ha
    obtain ⟨-, hl, hx⟩ := Errand.afterThrottle_eq_throttled.1 ha.symm
    exact Or.inr ⟨x, rfl, hc, hr, hl, hx⟩
  | false =>
    cases hprog : e'.progress with
    | begun => simp [Errand.isEarly, hprog] at hearly
    | waiting => simp [Errand.isEarly, hprog] at hearly
    | throttled other =>
      rw [Errand.goOn_throttled hprog] at hp
      obtain ⟨rfl, -⟩ := Errand.afterThrottle_eq_throttled.1 hp
      exact Or.inl ⟨e', he, hprog, rfl⟩
    | writing other => simp [Errand.goOn, hprog] at hp
    | done v => simp [Errand.goOn, hprog] at hp

theorem run_concat (y : Office) (acts : List Act) (a : Act) :
    y.run (acts ++ [a]) = (y.run acts).next a :=
  List.foldl_append

theorem throttled_run (o : Options) (mode : DispatchMode) (x₀ : Surroundings) (acts : List Act)
    {id : Nat} {e : Errand} {frame : Frame}
    (h : ((start o mode x₀).run acts).errands id = some e) (hp : e.progress = .throttled frame) :
    e.command = .send frame ∧ frame.op.isLimited = true ∧
      ∃ before z later, acts = before ++ .go id z :: later ∧
        ((start o mode x₀).run before).state = .ready ∧ z.isClear = false := by
  induction acts using List.reverseRecOn generalizing e with
  | nil => cases h
  | append_singleton acts a ih =>
    rw [run_concat] at h
    obtain ⟨e', he, hp', hc⟩ | ⟨x, rfl, hc, hr, hl, hx⟩ := throttled_next h hp
    · obtain ⟨hsend, hl, before, z, later, rfl, hr, hz⟩ := ih he hp'
      exact ⟨hc ▸ hsend, hl, before, z, later ++ [a], by simp, hr, hz⟩
    · exact ⟨hc, hl, acts, x, [], rfl, hr, hx⟩

/-- A command is written by those who come in a session that is ready and are not held back, and by
those who were held back and are let go. -/
theorem writes_iff {x : Surroundings}
    (hl : ∀ e other, y.errands id = some e → e.progress = .throttled other →
      e.command = .send other ∧ other.op.isLimited = true) :
    y.Writes id x frame ↔ ∃ e, y.errands id = some e ∧ e.command = .send frame ∧
      (e.isEarly = true ∧ y.state = .ready ∧ (frame.op.isLimited = true → x.isClear = true) ∨
        e.progress = .throttled frame ∧ x.isClear = true) := by
  constructor
  · rintro ⟨e, he, hnot, hw⟩
    refine ⟨e, he, ?_⟩
    cases hearly : e.isEarly with
    | true =>
      obtain ⟨hc, hr, ha⟩ := Errand.goOn_early hearly (Or.inr hw)
      rw [hw] at ha
      exact ⟨hc, Or.inl ⟨rfl, hr, (Errand.afterThrottle_eq_writing.1 ha.symm).2⟩⟩
    | false =>
      cases hprog : e.progress with
      | begun => simp [Errand.isEarly, hprog] at hearly
      | waiting => simp [Errand.isEarly, hprog] at hearly
      | throttled other =>
        rw [Errand.goOn_throttled hprog] at hw
        obtain ⟨rfl, hclear⟩ := Errand.afterThrottle_eq_writing.1 hw
        obtain ⟨hc, hlimited⟩ := hl e other he hprog
        exact ⟨hc, Or.inr ⟨rfl, hclear hlimited⟩⟩
      | writing other => exact absurd hprog (hnot other)
      | done v => simp [Errand.goOn, hprog] at hw
  · rintro ⟨e, he, hc, ⟨hearly, hr, hx⟩ | ⟨hp, hx⟩⟩
    · refine ⟨e, he, fun other ho => by simp [Errand.isEarly, ho] at hearly, ?_⟩
      rw [Errand.goOn_ready hearly hc hr]
      exact Errand.afterThrottle_eq_writing.2 ⟨rfl, hx⟩
    · refine ⟨e, he, fun other ho => by simp [ho] at hp, ?_⟩
      rw [Errand.goOn_throttled hp]
      exact Errand.afterThrottle_eq_writing.2 ⟨rfl, fun _ => hx⟩

/-- A command that is not held back is written in a session that is ready. One that is held back was
let in by a session that was ready, and is written when the limits let it go, whatever the state. An
open connection has had its handshake exactly if its session is live and no handshake is pending. -/
theorem command_is_written_iff (o : Options) (mode : DispatchMode) (x₀ : Surroundings)
    (acts : List Act) (id : Nat) (x : Surroundings) (frame : Frame) :
    let y := (start o mode x₀).run acts
    (y.Writes id x frame ↔ ∃ e, y.errands id = some e ∧ e.command = .send frame ∧
      (e.isEarly = true ∧ y.state = .ready ∧ (frame.op.isLimited = true → x.isClear = true) ∨
        e.progress = .throttled frame ∧ x.isClear = true)) ∧
    (∀ e, y.errands id = some e → e.progress = .throttled frame →
      frame.op.isLimited = true ∧ ∃ before z later, acts = before ++ .go id z :: later ∧
        ((start o mode x₀).run before).state = .ready ∧ z.isClear = false) ∧
    (y.state.isOpen = true → (Shaken y.course.log ↔
      y.state.isLive = true ∧ ¬ y.course.session.IsPending)) := by
  intro y
  refine ⟨writes_iff fun e other he hp => ?_, fun e he hp => ?_, fun ho => ?_⟩
  · obtain ⟨hc, hl, -⟩ := throttled_run o mode x₀ acts he hp
    exact ⟨hc, hl⟩
  · obtain ⟨-, hl, hback⟩ := throttled_run o mode x₀ acts he hp
    exact ⟨hl, hback⟩
  · obtain ⟨own, hown⟩ := course_run (start o mode x₀) acts
    have hiff := Course.shaken_iff o mode x₀ own
    have hcourse : y.course = (Course.start o mode x₀).run own := hown
    rw [← hcourse] at hiff
    exact hiff ho

/-- A limit holds a command back while the session loses its connection and opens another. -/
def heldBack (x later : Surroundings) (frame : Frame) : List Act :=
  (Course.greeting x ++ Course.turns x [.sent, .proceed] ++
    Course.hear x (.dispatch "READY" 1 (.object [("session_id", .string "session")]))).map .session ++
  [.ask 0 (.send frame), .go 0 { x with isClear := false }] ++
  (.endInbound :: Course.turns x (.inbound :: List.replicate 4 .proceed ++
      [.disconnected, .proceed, .proceed, .proceed]) ++
    Course.turns later [.reconnectDue, .proceed, .proceed, .opened, .proceed, .proceed]).map .session

theorem heldBack_is_written_before_handshake :
    let x := Rehearsal.Play.surroundingsAt 0 true
    let later := Rehearsal.Play.surroundingsAt 60000 true
    let frame := Frame.presenceUpdate (.ofStatus .online)
    let y := (start (.create "wss://gateway.test" "token" .unprivileged) .unbounded x).run
      (heldBack x later frame)
    y.Writes 0 later frame ∧ y.state = .awaitingHello ∧ .opened ∈ y.course.log ∧
      ∀ f, .wrote f ∉ sinceOpened y.course.log := by
  intro x later frame y
  have he : y.errands 0 = some ⟨.send frame, .throttled frame⟩ := by decide +kernel
  have hs : sinceOpened y.course.log = [] := by decide +kernel
  refine ⟨⟨⟨.send frame, .throttled frame⟩, he, fun f hf => ?_, ?_⟩, by decide +kernel,
    by decide +kernel, fun f => ?_⟩
  · cases hf
  · decide +kernel
  · rw [hs]
    exact List.not_mem_nil

end Office

end Parley.Gateway

namespace Parley.Rehearsal.Play
open Gateway (Errand Office)

/-- Whatever a rehearsal makes an errand do, it does beside a course of the session. -/
theorem runErrand_is_office (now id : Nat) (p : Play) (e : Errand) (y : Office)
    (hs : y.course.session = p.client.session) (hy : y.errands = p.errands.get?)
    (he : p.errands.get? id = some e) :
    ∃ acts, (y.run acts).course.session = (p.runErrand now id e).client.session ∧
      (y.run acts).errands = (p.runErrand now id e).errands.get? := by
  let x := p.surroundings now
  let went := e.goOn p.client.session x
  have hgo : y.next (.go id x) =
      Office.setErrand { y with course := { y.course with session := went.2 } } id went.1 := by
    rw [Office.next_go (hy ▸ he), hs]
  have hrun : p.runErrand now id e = (p.withSession went.2).settleErrand id went.1 := rfl
  have hnow : (y.next (.go id x)).errands id = some went.1 := by simp [hgo, Office.setErrand]
  rw [hrun]
  unfold settleErrand
  split
  · next frame hp =>
    refine ⟨[.go id x, .written id ((p.withSession went.2).server.send frame).2], ?_⟩
    rw [Office.run, List.foldl_cons, List.foldl_cons, List.foldl_nil, Office.next_written hnow hp,
      hgo]
    refine ⟨rfl, ?_⟩
    funext other
    simp only [Office.setErrand, hy, withSession, Table.get?_insert, eq_comm]
    split_ifs <;> rfl
  · refine ⟨[.go id x], ?_⟩
    rw [Office.run, List.foldl_cons, List.foldl_nil, hgo]
    refine ⟨rfl, ?_⟩
    funext other
    simp only [Office.setErrand, hy, withSession, Table.get?_insert, eq_comm]

end Parley.Rehearsal.Play
