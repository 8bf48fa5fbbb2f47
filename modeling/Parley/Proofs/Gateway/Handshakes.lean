import Parley.Proofs.Gateway.Sources

/-! Every handshake that a session writes answers a hello of the same connection, and no connection
is given two. A handshake that is held back is forgotten with its connection. -/
namespace Parley.Gateway

def Frame.isHandshake (f : Frame) : Bool := f.op == .identify || f.op == .resume

namespace Note

def IsNeutral (n : Note) : Prop :=
  n ≠ opened ∧ (∀ h, n ≠ hello h) ∧ ∀ f, n = wrote f → f.isHandshake = false

end Note

/-- A connection is open, and neither a hello nor a handshake has passed over it. -/
structure Fresh (log : List Note) : Prop where
  opened : .opened ∈ log
  silent : ∀ h, .hello h ∉ sinceOpened log
  unsent : ∀ f, .wrote f ∈ sinceOpened log → f.isHandshake = false

/-- A connection is open, and its hello has called for a handshake. -/
structure Called (log : List Note) (h : Handshake) : Prop where
  opened : .opened ∈ log
  hello : .hello h ∈ sinceOpened log
  only : ∀ h', .hello h' ∈ sinceOpened log → h' = h

/-- The handshake that is called for has not been written. -/
structure Greeted (log : List Note) (h : Handshake) : Prop extends Called log h where
  read : ∃ bytes interval, .read bytes ∈ sinceOpened log ∧
    Input.ofMessage? bytes = some (.hello interval)
  unsent : ∀ f, .wrote f ∈ sinceOpened log → f.isHandshake = false

/-- Each handshake in the log was the one that its connection called for. -/
def Answered (s : Session) : List Note → Prop :=
  Throughout fun earlier n => ∀ f, n = .wrote f → f.isHandshake = true →
    ∃ h, Greeted earlier h ∧ f = s.frameOf h

section Log
variable {log notes : List Note} {n : Note} {h : Handshake} {s : Session}

theorem sinceOpened_cons (hn : n ≠ .opened) : sinceOpened (n :: log) = n :: sinceOpened log := by
  simp [sinceOpened, hn]

theorem fresh_opened (log : List Note) : Fresh (.opened :: log) :=
  ⟨List.mem_cons_self, by simp [sinceOpened], by simp [sinceOpened]⟩

theorem Fresh.cons (hf : Fresh log) (hn : n.IsNeutral) : Fresh (n :: log) := by
  obtain ⟨ho, hh, hw⟩ := hn
  refine ⟨List.mem_cons_of_mem n hf.opened, fun h => ?_, fun f hm => ?_⟩
  · rw [sinceOpened_cons ho, List.mem_cons, not_or]
    exact ⟨(hh h).symm, hf.silent h⟩
  · rw [sinceOpened_cons ho] at hm
    exact (List.mem_cons.1 hm).elim (fun e => hw f e.symm) (hf.unsent f)

theorem Called.cons (hc : Called log h) (ho : n ≠ .opened) (hh : ∀ h, n ≠ .hello h) :
    Called (n :: log) h := by
  have hs : sinceOpened (n :: log) = n :: sinceOpened log := sinceOpened_cons ho
  refine ⟨List.mem_cons_of_mem n hc.opened, ?_, fun h' hm => ?_⟩
  · rw [hs]; exact List.mem_cons_of_mem n hc.hello
  · rw [hs] at hm
    exact (List.mem_cons.1 hm).elim (fun e => absurd e.symm (hh h')) (hc.only h')

theorem Greeted.cons (hg : Greeted log h) (hn : n.IsNeutral) : Greeted (n :: log) h := by
  obtain ⟨ho, hh, hw⟩ := hn
  obtain ⟨bytes, interval, hm, hi⟩ := hg.read
  have hs : sinceOpened (n :: log) = n :: sinceOpened log := sinceOpened_cons ho
  refine ⟨hg.toCalled.cons ho hh, ⟨bytes, interval, ?_, hi⟩, fun f hm => ?_⟩
  · rw [hs]; exact List.mem_cons_of_mem n hm
  · rw [hs] at hm
    exact (List.mem_cons.1 hm).elim (fun e => hw f e.symm) (hg.unsent f)

theorem Fresh.call (hf : Fresh log) (h : Handshake) : Called (.hello h :: log) h := by
  have hs : sinceOpened (.hello h :: log) = .hello h :: sinceOpened log :=
    sinceOpened_cons (by simp)
  refine ⟨List.mem_cons_of_mem _ hf.opened, ?_, fun h' hm => ?_⟩
  · rw [hs]; exact List.mem_cons_self
  · rw [hs] at hm
    exact (List.mem_cons.1 hm).elim Note.hello.inj fun hm => absurd hm (hf.silent h')

theorem Fresh.greet (hf : Fresh log) {bytes : List UInt8} {interval : Duration}
    (hr : .read bytes ∈ sinceOpened log) (hi : Input.ofMessage? bytes = some (.hello interval)) :
    Greeted (.hello h :: log) h := by
  have hs : sinceOpened (.hello h :: log) = .hello h :: sinceOpened log :=
    sinceOpened_cons (by simp)
  refine ⟨hf.call h, ⟨bytes, interval, ?_, hi⟩, fun f hm => ?_⟩
  · rw [hs]; exact List.mem_cons_of_mem _ hr
  · rw [hs] at hm
    exact (List.mem_cons.1 hm).elim (by simp) (hf.unsent f)

theorem Answered.cons_neutral (ha : Answered s log) (hn : n.IsNeutral) : Answered s (n :: log) :=
  ⟨fun f e hf => by simp [hn.2.2 f e] at hf, ha⟩

theorem Answered.congr {s' : Session} (ha : Answered s log) (hp : s'.payload = s.payload) :
    Answered s' log :=
  ha.mono fun _ _ h f hn hf => by
    obtain ⟨a, hg, rfl⟩ := h f hn hf
    exact ⟨a, hg, by cases a <;> simp [Session.frameOf, hp]⟩

end Log

theorem Effect.handshake?_eq_some {e : Effect} {h : Handshake} :
    e.handshake? = some h ↔ e = h.effect := by
  cases e <;> cases h <;> simp [handshake?, Handshake.effect, eq_comm]

theorem filterMap_handshake? (interval : Duration) (a : Handshake) :
    [Effect.startHeartbeat interval, a.effect].filterMap Effect.handshake? = [a] := by
  cases a <;> rfl

/-- A handshake is called for when a hello is accepted, and then alone. -/
theorem Transition.handshakes {s s' : State} {i : Input} {effects : List Effect}
    (h : Transition s i s' effects) :
    (∃ interval, ∃ a : Handshake, i = .hello interval ∧ s = .awaitingHello ∧ s' = a.state ∧
        effects = [.startHeartbeat interval, a.effect]) ∨
      ((∀ e ∈ effects, e.handshake? = none) ∧
        (s' = .awaitingHello → s = .awaitingHello ∨ i = .opened)) := by
  cases h with
  | stay hr => exact .inr ⟨by simp, .inl⟩
  | connect url => exact .inr ⟨by simp [Effect.handshake?], by simp⟩
  | reconnect url => exact .inr ⟨by simp [Effect.handshake?], by simp⟩
  | opened => exact .inr ⟨by simp, fun _ => .inr rfl⟩
  | greet interval a => exact .inl ⟨interval, a, rfl, rfl, rfl, rfl⟩
  | beat sequence hl hi => exact .inr ⟨by simp [Effect.handshake?], .inl⟩
  | connected event ready hs => exact .inr ⟨by simp [Effect.handshake?], by simp⟩
  | event event ready => exact .inr ⟨by simp [Effect.handshake?], by simp⟩
  | lose i code delay hs hc => exact .inr ⟨by simp [Effect.handshake?], by simp⟩
  | fail i code reason hs hc => exact .inr ⟨by simp [Effect.handshake?], by simp⟩
  | shutdown code hs hc => exact .inr ⟨by simp [Effect.handshake?], by simp⟩

namespace Session
variable {s : Session} {e : Effect}

theorem perform_turn {effects : List Effect} (he : s.effects = e :: effects) (x : Surroundings) :
    s.step x .proceed = perform { s with effects } x e ∧
      s.notes x .proceed = (s.pushed? e).toList.map .pushed := by
  constructor
  · simp [step, proceed, he]
  · simp [notes, he]

theorem apply_turn {i : Input} (hd : s.doing = .working) (he : s.effects = [])
    (hi : s.inputs = [i]) (x : Surroundings) :
    ∃ machine effects, s.step x .proceed = { s with machine, effects, inputs := [] } ∧
      Transition s.state i machine.state effects ∧
      s.seen x .proceed = (effects.filterMap Effect.handshake?).map .hello := by
  have ht := s.machine.transition x.now x.roll i
  cases hh : s.machine.handle x.now x.roll i with
  | mk machine effects =>
    rw [hh] at ht
    have hstep : s.step x .proceed = { s with machine, effects, inputs := [] } := by
      simp [step, proceed, he, hi, hh]
    have hw : (s.step x .proceed).writing? = none := by simp [hstep, writing?, hd]
    refine ⟨machine, effects, hstep, ht, ?_⟩
    simp only [seen, hw, notes, he, hi]
    split
    · next h => cases h
    · next _ h =>
      obtain ⟨rfl, -⟩ := List.cons.inj h
      simp [hh]
    · next h =>
      obtain ⟨interval, a, rfl, -⟩ | ⟨hn, -⟩ := ht.handshakes
      · exact (h interval [] rfl rfl).elim
      · rw [List.filterMap_eq_nil_iff.2 hn]
        rfl

theorem wait_turn (he : s.effects = []) (hi : s.inputs = []) (x : Surroundings) :
    s.step x .proceed =
        { s with doing := if s.state.isStopped then .draining else .listening } ∧
      s.seen x .proceed = [] := by
  have hstep : s.step x .proceed =
      { s with doing := if s.state.isStopped then .draining else .listening } := by
    simp [step, proceed, he, hi]
  refine ⟨hstep, ?_⟩
  rw [seen, hstep]
  simp only [notes, he, hi, writing?]
  cases s.state.isStopped <;> rfl

/-- Besides handshakes, only heartbeats are written. -/
theorem perform_other (s : Session) (x : Surroundings) (hn : e.handshake? = none) :
    ((s.perform x e).held = s.held ∨ (s.perform x e).held = none) ∧
      ∀ f, (s.perform x e).writing? = some f → s.writing? = some f ∨ f.isHandshake = false := by
  cases hp : s.pushed? e with
  | some d =>
    obtain ⟨dedupe, h⟩ := perform_push hp x
    rw [h]
    refine ⟨.inl rfl, fun f hf => .inl ?_⟩
    obtain hd | hd := doing_push { s with dedupe } d
    · simpa [writing?, hd] using hf
    · simp [writing?, hd] at hf
  | none =>
    cases e with
    | deliver event => rw [perform_dropped hp]; exact ⟨.inl rfl, fun f => .inl⟩
    | heartbeat sequence =>
      refine ⟨.inl rfl, fun f hf => .inr ?_⟩
      obtain rfl := Option.some.inj hf
      rfl
    | startHeartbeat interval =>
      simp only [perform]
      split
      · exact ⟨.inl rfl, by simp [writing?]⟩
      · exact ⟨.inl rfl, fun f => .inl⟩
    | identify => cases hn
    | resume id sequence => cases hn
    | openUrl url => exact ⟨.inl rfl, by simp [perform, writing?]⟩
    | stopHeartbeat => exact ⟨.inl rfl, fun f => .inl⟩
    | closeTransport code => exact ⟨.inr rfl, by simp [perform, writing?]⟩
    | scheduleReconnect delay => exact ⟨.inl rfl, fun f => .inl⟩
    | connected resumed => cases hp
    | disconnected cause => cases hp
    | fatal reason => exact ⟨.inl rfl, fun f => .inl⟩

end Session

structure Shaking (s : Session) (log : List Note) : Prop where
  held : ∀ h, s.held = some h → Greeted log h
  owed : ∀ h, h.effect ∈ s.effects → Greeted log h ∧ s.held = none
  opening : .opened ∈ s.inputs → Fresh log
  waiting : s.state = .awaitingHello → Fresh log
  heard : ∀ t, .hello t ∈ s.inputs →
    ∃ bytes, .read bytes ∈ sinceOpened log ∧ Input.ofMessage? bytes = some (.hello t)
  answered : Answered s log

namespace Shaking
variable {s s' : Session} {log : List Note} {n : Note} {x : Surroundings}

theorem start (o : Options) (mode : DispatchMode) (x : Surroundings) :
    Shaking (.start o mode x) [] where
  held h hh := by cases hh
  owed h he := by
    have he := Effect.handshake?_eq_some.2 (List.mem_singleton.1 he).symm
    cases he
  opening h := by cases h
  waiting h := by cases h
  heard t h := by cases h
  answered := trivial

theorem keep (h : Shaking s log) (hp : s'.payload = s.payload)
    (hh : ∀ a, s'.held = some a → s.held = some a)
    (he : ∀ a, Handshake.effect a ∈ s'.effects → a.effect ∈ s.effects)
    (ho : .opened ∈ s'.inputs → .opened ∈ s.inputs)
    (hs : s'.state = .awaitingHello → s.state = .awaitingHello ∨ .opened ∈ s.inputs)
    (hi : ∀ t, .hello t ∈ s'.inputs → .hello t ∈ s.inputs) : Shaking s' log where
  held a ha := h.held a (hh a ha)
  owed a ha := by
    obtain ⟨hg, hn⟩ := h.owed a (he a ha)
    refine ⟨hg, Option.eq_none_iff_forall_not_mem.2 fun b hb => ?_⟩
    rw [hh b hb] at hn
    cases hn
  opening h' := h.opening (ho h')
  waiting h' := (hs h').elim h.waiting h.opening
  heard t h' := h.heard t (hi t h')
  answered := h.answered.congr hp

theorem congr {r : Session} (h : Shaking s log) (hm : r.machine = s.machine)
    (he : r.effects = s.effects) (hi : r.inputs = s.inputs) (hp : r.payload = s.payload)
    (hh : r.held = s.held) : Shaking r log := by
  refine h.keep hp ?_ ?_ ?_ ?_ ?_
  · rw [hh]; exact fun _ => id
  · rw [he]; exact fun _ => id
  · rw [hi]; exact id
  · rw [Session.state, hm]; exact .inl
  · rw [hi]; exact fun _ => id

theorem note (h : Shaking s log) (hn : n.IsNeutral) : Shaking s (n :: log) where
  held a ha := (h.held a ha).cons hn
  owed a ha := ⟨(h.owed a ha).1.cons hn, (h.owed a ha).2⟩
  opening h' := (h.opening h').cons hn
  waiting h' := (h.waiting h').cons hn
  heard t h' := by
    obtain ⟨bytes, hm, hi⟩ := h.heard t h'
    refine ⟨bytes, ?_, hi⟩
    rw [sinceOpened_cons hn.1]
    exact List.mem_cons_of_mem n hm
  answered := h.answered.cons_neutral hn

theorem notes {notes : List Note} (h : Shaking s log) (hn : ∀ n ∈ notes, n.IsNeutral) :
    Shaking s (notes ++ log) := by
  induction notes with
  | nil => exact h
  | cons n notes ih =>
    exact (ih fun m hm => hn m (List.mem_cons_of_mem n hm)).note (hn n List.mem_cons_self)

theorem resume {inputs : List Input} (h : Shaking s log) (ho : .opened ∉ inputs)
    (hr : ∀ t, .hello t ∈ inputs → ∃ bytes, .read bytes ∈ sinceOpened log ∧
      Input.ofMessage? bytes = some (.hello t)) : Shaking (s.resume inputs) log where
  held := h.held
  owed := h.owed
  opening h' := (List.mem_append.1 h').elim h.opening fun h' => absurd h' ho
  waiting := h.waiting
  heard t h' := (List.mem_append.1 h').elim (h.heard t) (hr t)
  answered := h.answered.congr rfl

/-- With nothing left to do, only a handshake that is held back is still to be written. -/
theorem of_settled (he : s.effects = []) (hi : s.inputs = []) (hs : s.state ≠ .awaitingHello)
    (hh : ∀ h, s.held = some h → Greeted log h) (ha : Answered s log) : Shaking s log where
  held := hh
  owed a h := by simp [he] at h
  opening h := by simp [hi] at h
  waiting h := absurd h hs
  heard t h := by simp [hi] at h
  answered := ha

theorem perform_other {e : Effect} {effects : List Effect} (h : Shaking s log)
    (hd : s.doing = .working) (he : s.effects = e :: effects) (hn : e.handshake? = none) :
    Shaking (s.step x .proceed) (s.seen x .proceed ++ log) := by
  obtain ⟨hstep, hnotes⟩ := Session.perform_turn he x
  obtain ⟨hm, hr, hi, hp⟩ := Session.perform_keeps { s with effects } x e
  obtain ⟨hh, hw⟩ := Session.perform_other { s with effects } x hn
  have hk : Shaking (s.step x .proceed) log := by
    rw [hstep]
    refine h.keep hp (fun a ha => ?_) (fun a ha => ?_) (fun ho => ?_) (fun hs => .inl ?_)
      fun t ht => ?_
    · obtain hh | hh := hh
      · rwa [hh] at ha
      · rw [hh] at ha; cases ha
    · rw [hr] at ha
      rw [he]
      exact List.mem_cons_of_mem e ha
    · rwa [hi] at ho
    · rwa [Session.state, hm] at hs
    · rwa [hi] at ht
  refine hk.notes fun n hn => ?_
  simp only [Session.seen, hnotes, hstep, List.mem_append, List.mem_map, Option.mem_toList] at hn
  obtain ⟨f, hf, rfl⟩ | ⟨d, -, rfl⟩ := hn
  · refine ⟨by simp, by simp, fun g hg => ?_⟩
    obtain rfl := Note.wrote.inj hg
    obtain hf | hf := hw f hf
    · simp [Session.writing?, hd] at hf
    · exact hf
  · exact ⟨by simp, by simp, by simp⟩

/-- A handshake that is due is written or held back. -/
theorem perform_handshake {a : Handshake} (h : Shaking s log) (hd : s.doing = .working)
    (he : s.effects = [a.effect]) (hi : s.inputs = []) (hl : s.state.isLive = true) :
    Shaking (s.step x .proceed) (s.seen x .proceed ++ log) := by
  obtain ⟨hg, hn⟩ := h.owed a (by simp [he])
  have hs : s.state ≠ .awaitingHello := fun hs => by rw [hs] at hl; cases hl
  obtain ⟨hstep, hnotes⟩ := Session.perform_turn he x
  have hshake : Session.perform { s with effects := [] } x a.effect =
      Session.shake { s with effects := [] } x a := by cases a <;> rfl
  have hnone : s.pushed? a.effect = none := by cases a <;> rfl
  rw [hshake] at hstep
  rw [hnone] at hnotes
  simp only [Session.seen, hnotes, hstep, Session.shake]
  split
  · refine of_settled rfl hi hs (fun b hb => ?_) ?_
    · rw [show s.held = some b from hb] at hn
      cases hn
    · refine ⟨fun f hf _ => ?_, h.answered.congr rfl⟩
      obtain rfl := Note.wrote.inj hf
      exact ⟨a, hg, by cases a <;> rfl⟩
  · rw [Session.writing?, hd]
    refine of_settled rfl hi hs (fun b hb => ?_) (h.answered.congr rfl)
    obtain rfl : a = b := Option.some.inj hb
    exact hg

theorem apply {i : Input} (h : Shaking s log) (hd : s.doing = .working) (he : s.effects = [])
    (hi : s.inputs = [i]) (hx : s.sources.Expect s.state i) :
    Shaking (s.step x .proceed) (s.seen x .proceed ++ log) := by
  obtain ⟨machine, effects, hstep, ht, hseen⟩ := Session.apply_turn hd he hi x
  rw [hstep, hseen]
  obtain ⟨interval, a, rfl, hs, hs', rfl⟩ | ⟨hn, hs⟩ := ht.handshakes
  · -- A hello is accepted, which only a fresh connection can bring.
    obtain ⟨bytes, hb, hm⟩ := h.heard interval (by simp [hi])
    have hg := (h.waiting hs).greet (h := a) hb hm
    have hheld : s.held = none := by
      have hx : s.sources.Suit .awaitingHello := hs ▸ hx
      simpa [Session.sources] using congrArg Sources.held hx
    rw [filterMap_handshake?]
    refine ⟨fun b hb => ?_, fun b hb => ⟨?_, hheld⟩, by simp, fun hw => ?_, by simp, ?_⟩
    · rw [show s.held = some b from hb] at hheld
      cases hheld
    · obtain rfl : b = a := by cases a <;> cases b <;> simp_all [Handshake.effect]
      exact hg
    · rw [show machine.state = .awaitingHello from hw] at hs'
      cases a <;> cases hs'
    · exact ⟨by simp, h.answered.congr rfl⟩
  · rw [List.filterMap_eq_nil_iff.2 hn]
    refine h.keep rfl (fun _ => id) (fun b hb => ?_) (by simp) (fun hw => ?_) (by simp)
    · have hb := (hn _ hb).symm.trans (Effect.handshake?_eq_some.2 rfl)
      cases hb
    · rw [hi, List.mem_singleton]
      exact (hs hw).imp_right Eq.symm

theorem read {i : Inbox} (h : Shaking s log) (hb : s.inbox = some i) (hr : i.isReadable = true) :
    Shaking (s.step x .inbound) (s.seen x .inbound ++ log) := by
  have hclosed (info : CloseInfo) :
      Shaking (Session.resume { s with inbox := none } [.closed info]) log :=
    (h.congr (r := { s with inbox := none }) rfl rfl rfl rfl rfl).resume (by simp) (by simp)
  simp only [Session.seen, Session.notes, Session.step, Session.read, hb, Option.map_some]
  split
  · next bytes unread hu =>
    have hn := (h.congr (r := { s with inbox := some { i with unread } }) rfl rfl rfl rfl
      rfl).note (n := .read bytes) ⟨by simp, by simp, by simp⟩
    simp only [hu]
    refine hn.resume (fun ho => ?_) fun t ht => ⟨bytes, ?_, Option.mem_toList.1 ht⟩
    · have hs := Input.isFromServer_ofMessage? (Option.mem_toList.1 ho)
      cases hs
    · rw [sinceOpened_cons (by simp)]
      exact List.mem_cons_self
  · next info unread hu =>
    simp only [hu]
    exact hclosed info
  · next hu =>
    have hended : i.ended = true := by simpa [Inbox.isReadable, hu] using hr
    simp only [hu, if_pos hended]
    exact hclosed _

theorem connected (h : Shaking s log) (he : s.effects = []) (hi : s.inputs = [])
    (hh : s.held = none) : Shaking (s.step x .opened) (s.seen x .opened ++ log) := by
  refine ⟨fun b hb => ?_, fun b hb => ?_, fun _ => fresh_opened _, fun hw => fresh_opened _,
    fun t ht => ?_, ?_⟩
  · rw [show s.held = some b from hb] at hh
    cases hh
  · rw [show (s.step x .opened).effects = [] from he] at hb
    cases hb
  · simp [Session.step, Session.resume, hi] at ht
  · exact ⟨by simp, h.answered.congr rfl⟩

/-- A handshake that was held back is written. -/
theorem release {a : Handshake} (h : Shaking s log) (he : s.effects = []) (hi : s.inputs = [])
    (hl : s.state.isLive = true) (hh : s.held = some a) :
    Shaking (s.step x .throttleClear) (s.seen x .throttleClear ++ log) := by
  have hs : s.state ≠ .awaitingHello := fun hs => by rw [hs] at hl; cases hl
  simp only [Session.seen, Session.step, hh]
  refine of_settled he hi hs (by simp [Session.send]) ⟨fun f hf _ => ?_, h.answered.congr rfl⟩
  obtain rfl := Note.wrote.inj hf
  exact ⟨a, h.held a hh, by cases a <;> rfl⟩

theorem wait (h : Shaking s log) (hi : s.inputs = []) (he : s.effects = []) :
    Shaking (s.step x .proceed) (s.seen x .proceed ++ log) := by
  obtain ⟨hstep, hseen⟩ := Session.wait_turn he hi x
  rw [hstep, hseen]
  exact h.congr rfl rfl rfl rfl rfl

theorem perform {e : Effect} {effects : List Effect} (h : Shaking s log)
    (hd : s.doing = .working) (hi : s.inputs = []) (he : s.effects = e :: effects)
    (hx : s.sources.Lead s.state s.effects) :
    Shaking (s.step x .proceed) (s.seen x .proceed ++ log) := by
  cases ha : e.handshake? with
  | none => exact h.perform_other hd he ha
  | some a =>
    obtain rfl := Effect.handshake?_eq_some.1 ha
    rw [he] at hx
    obtain ⟨rfl, hl, -⟩ : effects = [] ∧ s.state.isLive = true ∧ s.sources.Suit s.state := by
      cases a <;> exact hx
    exact h.perform_handshake hd he hi hl

theorem proceed (h : Shaking s log) (hst : s.Steady) (hd : s.doing = .working) :
    Shaking (s.step x .proceed) (s.seen x .proceed ++ log) := by
  obtain ⟨hi, hx⟩ | ⟨i, he, hi, hx⟩ := hst.of_working hd
  · cases he : s.effects with
    | nil => exact h.wait hi he
    | cons e effects => exact h.perform hd hi he hx
  · exact h.apply hd he hi hx

theorem listen {w : Wake} (h : Shaking s log) (he : s.effects = []) (hi : s.inputs = [])
    (hx : s.sources.Suit s.state) (hw : s.source? x = some w) :
    Shaking (s.step x w) (s.seen x w ++ log) := by
  obtain rfl | ⟨rfl, hr⟩ | ⟨rfl, ht⟩ | ⟨rfl, a, hh⟩ | ⟨rfl, i, hb, hr⟩ := Session.source?_cases hw
  · exact h.resume (by simp) (by simp)
  · exact (h.congr (r := { s with reconnectAt := none }) rfl rfl rfl rfl rfl).resume (by simp)
      (by simp)
  · exact (h.congr (r := { s with ticker := s.ticker.map fun t => t.next x.now }) rfl rfl rfl rfl
      rfl).resume (by simp) (by simp)
  · exact h.release he hi (hx.isLive_of_held (by simp [Session.sources, hh])) hh
  · exact h.read hb hr

theorem step {w : Wake} (h : Shaking s log) (hst : s.Steady) (ha : s.Allowed x w) :
    Shaking (s.step x w) (s.seen x w ++ log) := by
  cases ha with
  | proceed hd => exact h.proceed hst hd
  | opened url hd =>
    obtain ⟨he, hi, -, hx⟩ := hst.of_connecting hd
    refine h.connected he hi ?_
    simpa [Session.sources, Sources.bare] using congrArg Sources.held hx
  | refused url e hd => exact h.resume (by simp) (by simp)
  | left url hd hl => exact h.resume (by simp) (by simp)
  | sent frame hd => exact h.resume (by simp) (by simp)
  | unsent frame e hd => exact h.resume (by simp) (by simp)
  | disconnected code hd => exact h.resume (by simp) (by simp)
  | delivered hd hp => exact h.resume (by simp) (by simp)
  | source hd hw =>
    obtain ⟨he, hi, -, hx⟩ := hst.of_listening hd
    exact h.listen he hi hx hw
  | drained hd hq => exact h.congr rfl rfl rfl rfl rfl

end Shaking

theorem Session.payload_step (s : Session) (x : Surroundings) (w : Wake) :
    (s.step x w).payload = s.payload := by
  by_cases hw : w = .proceed
  · subst hw
    simp only [step, proceed]
    split
    · next e effects _ => exact (perform_keeps { s with effects } x e).2.2.2
    · rfl
    · rfl
  · exact (s.step_keeps x hw).2.2.2

namespace Course

theorem shaking_next {c : Course} (h : Shaking c.session c.log) (hs : c.session.Steady) (a : Act) :
    Shaking (c.next a).session (c.next a).log := by
  cases a with
  | wake x w => exact next_wake (P := fun c => Shaking c.session c.log) h (h.step hs)
  | receive m => exact h.congr rfl rfl rfl rfl rfl
  | endInbound => exact h.congr rfl rfl rfl rfl rfl
  | leave => exact h.congr rfl rfl rfl rfl rfl
  | call =>
    refine next_call (P := fun c => Shaking c.session c.log) h fun d dispatch _ => ?_
    exact (h.congr (r := { c.session with dispatch }) rfl rfl rfl rfl rfl).note
      (n := .handled d) ⟨by simp, by simp, by simp⟩
  | finish => exact h.congr rfl rfl rfl rfl rfl

theorem payload_next (c : Course) (a : Act) : (c.next a).session.payload = c.session.payload := by
  cases a with
  | wake x w =>
    exact next_wake (P := fun c' => c'.session.payload = c.session.payload) rfl fun _ =>
      c.session.payload_step x w
  | call =>
    exact next_call (P := fun c' => c'.session.payload = c.session.payload) rfl fun _ _ _ => rfl
  | receive m => rfl
  | endInbound => rfl
  | leave => rfl
  | finish => rfl

/-- A handshake is written after a hello of the same connection, as this hello called for it, and
after no other handshake of the same connection. -/
theorem handshake_answers_hello (o : Options) (mode : DispatchMode) (x : Surroundings)
    (acts : List Act) (later : List Note) (f : Frame) (earlier : List Note)
    (hl : ((start o mode x).run acts).log = later ++ .wrote f :: earlier)
    (hf : f.isHandshake = true) :
    .opened ∈ earlier ∧
      (∃ bytes interval, .read bytes ∈ sinceOpened earlier ∧
        Input.ofMessage? bytes = some (.hello interval)) ∧
      (∃ h, .hello h ∈ sinceOpened earlier ∧ f = (Session.start o mode x).frameOf h ∧
        ∀ h', .hello h' ∈ sinceOpened earlier → h' = h) ∧
      ∀ g, .wrote g ∈ sinceOpened earlier → g.isHandshake = false := by
  have hk := run_keeps (P := fun c => c.session.Steady ∧ Shaking c.session c.log ∧
      c.session.payload = o.identify) (start o mode x) acts
    ⟨Session.steady_start o mode x, .start o mode x, rfl⟩ fun a _ c ⟨hs, h, hp⟩ =>
      ⟨steady_next hs a, shaking_next h hs a, (payload_next c a).trans hp⟩
  obtain ⟨-, h, hp⟩ := hk
  have ha : Answered (.start o mode x) (later ++ .wrote f :: earlier) :=
    hl ▸ h.answered.congr hp.symm
  obtain ⟨handshake, hg, he⟩ := ha.at_entry f rfl hf
  exact ⟨hg.opened, hg.read, ⟨handshake, hg.hello, he, hg.only⟩, hg.unsent⟩

def released (x : Surroundings) : List Act :=
  greeting x ++ turns { x with isClear := true } [.throttleClear, .sent, .proceed]

theorem handshake_answers_hello_of_released :
    let x := Rehearsal.Play.surroundingsAt 0 false
    let fresh := start (.create "wss://gateway.test" "token" .unprivileged) .unbounded x
    let log := (fresh.run (released x)).log
    ((fresh.run (greeting x)).session.held = some .identify ∧
      log.tail = (fresh.run (greeting x)).log ∧
      log.head? = some (.wrote (.identify fresh.session.payload))) ∧
    .opened ∈ log.tail ∧
      (∃ bytes interval, .read bytes ∈ sinceOpened log.tail ∧
        Input.ofMessage? bytes = some (.hello interval)) ∧
      ∀ g, .wrote g ∈ sinceOpened log.tail → g.isHandshake = false := by
  have h := handshake_answers_hello (.create "wss://gateway.test" "token" .unprivileged) .unbounded
    (Rehearsal.Play.surroundingsAt 0 false) (released (Rehearsal.Play.surroundingsAt 0 false)) []
    (.identify (Options.create "wss://gateway.test" "token" .unprivileged).identify)
    ((start (.create "wss://gateway.test" "token" .unprivileged) .unbounded
      (Rehearsal.Play.surroundingsAt 0 false)).run
        (released (Rehearsal.Play.surroundingsAt 0 false))).log.tail
    (by decide +kernel) rfl
  dsimp only at h ⊢
  exact ⟨⟨by decide +kernel, by decide +kernel, by decide +kernel⟩, h.1, h.2.1, h.2.2.2⟩

end Course

end Parley.Gateway
