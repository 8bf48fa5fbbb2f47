import Parley.Proofs.Gateway.Handshakes

/-! What a session hands to the application is well bracketed: events come between the report of a
connection and that of its end, and nothing comes after the report of the last end. -/
namespace Parley.Gateway

namespace Delivery

def isClosed : Delivery → Bool
  | closed _ => true
  | _ => false

def isConnected : Delivery → Bool
  | connected _ => true
  | _ => false

def isFinal : Delivery → Bool
  | closed cause => cause.next.isFinal
  | _ => false

end Delivery

/-- The deliveries after the last report of an end. -/
def sinceClosed (ds : List Delivery) : List Delivery := ds.takeWhile fun d => !d.isClosed

def isUp (ds : List Delivery) : Bool := (sinceClosed ds).any Delivery.isConnected

def isSettled (ds : List Delivery) : Bool := ds.any Delivery.isFinal

def Fits (earlier : List Delivery) : Delivery → Prop
  | .event _ => isUp earlier = true ∧ isSettled earlier = false
  | .connected _ => isUp earlier = false ∧ isSettled earlier = false
  | .closed _ => isSettled earlier = false

section Lists
variable {ds later : List Delivery} {e : Event} {s : State}

theorem isUp_iff : isUp ds = true ↔ ∃ resumed, .connected resumed ∈ sinceClosed ds := by
  rw [isUp, List.any_eq_true]
  constructor
  · rintro ⟨d, hm, hd⟩
    cases d with
    | connected resumed => exact ⟨resumed, hm⟩
    | event e => cases hd
    | closed cause => cases hd
  · rintro ⟨resumed, hm⟩
    exact ⟨_, hm, rfl⟩

@[simp] theorem isUp_event (ds : List Delivery) (e : Event) : isUp (.event e :: ds) = isUp ds := rfl

@[simp] theorem isUp_connected (ds : List Delivery) (resumed : Bool) :
    isUp (.connected resumed :: ds) = true := rfl

@[simp] theorem isUp_closed (ds : List Delivery) (cause : CloseCause) :
    isUp (.closed cause :: ds) = false := rfl

theorem isSettled_closed (ds : List Delivery) (cause : CloseCause) :
    isSettled (.closed cause :: ds) = (cause.next.isFinal || isSettled ds) := rfl

theorem Fits.not_isSettled {d : Delivery} (h : Fits ds d) : isSettled ds = false := by
  cases d with
  | event e => exact h.2
  | connected resumed => exact h.2
  | closed cause => exact h

theorem isUp_drop : isUp (later ++ .event e :: ds) = isUp (later ++ ds) := by
  induction later with
  | nil => rfl
  | cons d later ih => cases d <;> simp [ih]

theorem isSettled_drop : isSettled (later ++ .event e :: ds) = isSettled (later ++ ds) := by
  simp [isSettled, Delivery.isFinal]

theorem fits_drop {d : Delivery} : Fits (later ++ .event e :: ds) d ↔ Fits (later ++ ds) d := by
  cases d <;> simp [Fits, isUp_drop, isSettled_drop]

/-- An event can be left out. -/
theorem throughout_drop (h : Throughout Fits (later ++ .event e :: ds)) :
    Throughout Fits (later ++ ds) := by
  induction later with
  | nil => exact h.2
  | cons d later ih => exact ⟨fits_drop.1 h.1, ih h.2⟩

/-- The deliveries fit together, and a machine in this state may have asked for them. -/
structure Tells (ds : List Delivery) (s : State) : Prop where
  fit : Throughout Fits ds
  up : isUp ds = (s == .ready)
  settled : isSettled ds = s.isStopped

theorem Tells.drop (h : Tells (later ++ .event e :: ds) s) : Tells (later ++ ds) s :=
  ⟨throughout_drop h.fit, isUp_drop.symm.trans h.up, isSettled_drop.symm.trans h.settled⟩

/-- Nothing follows the report of the last end. -/
theorem Tells.settle (h : Tells ds s) (hs : s.isStopped = true) :
    ∃ cause earlier, ds = .closed cause :: earlier ∧ cause.next.isFinal = true ∧
      ∀ cause', .closed cause' ∈ earlier → cause'.next.isFinal = false := by
  obtain ⟨hf, -, hd⟩ := h
  rw [hs] at hd
  cases ds with
  | nil => cases hd
  | cons d earlier =>
    have he : isSettled earlier = false := hf.1.not_isSettled
    have hlast : d.isFinal = true := by
      rw [show isSettled (d :: earlier) = (d.isFinal || isSettled earlier) from rfl, he] at hd
      simpa using hd
    cases d with
    | closed cause =>
      refine ⟨cause, earlier, rfl, hlast, fun cause' hm => ?_⟩
      exact Bool.eq_false_iff.2 (List.any_eq_false.1 he _ hm)
    | event e => cases hlast
    | connected resumed => cases hlast

end Lists

def Effect.delivery? : Effect → Option Delivery
  | deliver e => some (.event e)
  | connected resumed => some (.connected resumed)
  | disconnected cause => some (.closed cause)
  | _ => none

/-- What the effects want delivered, the latest first. -/
def told (effects : List Effect) : List Delivery := (effects.filterMap Effect.delivery?).reverse

section Effects
variable {s : Session} {e : Effect} {effects : List Effect} {d : Delivery}

theorem told_cons (h : e.delivery? = some d) : told (e :: effects) = told effects ++ [d] := by
  simp [told, h]

theorem told_cons_none (h : e.delivery? = none) : told (e :: effects) = told effects := by
  simp [told, h]

/-- What is pushed is what the effect wants delivered. -/
theorem Session.delivery?_of_pushed? (h : s.pushed? e = some d) : e.delivery? = some d := by
  cases e <;> simp only [pushed?, reduceCtorEq] at h
  case deliver e => exact (Option.ite_none_right_eq_some.1 h).2
  all_goals exact h

theorem Session.delivery?_of_not_pushed? (h : s.pushed? e = none) :
    e.delivery? = none ∨ ∃ event, e = .deliver event := by
  cases e <;> simp_all [pushed?, Effect.delivery?]

end Effects

/-- Whatever a machine asks for fits what it has asked for before. -/
theorem Tells.transition {ds : List Delivery} {s s' : State} {i : Input} {effects : List Effect}
    (h : Tells ds s) (ht : Transition s i s' effects) (hi : i ≠ .connect) :
    Tells (told effects ++ ds) s' := by
  obtain ⟨hf, hu, hd⟩ := h
  cases ht with
  | stay hr => exact ⟨hf, hu, hd⟩
  | connect url => exact absurd rfl hi
  | reconnect url => exact ⟨hf, hu, hd⟩
  | opened => exact ⟨hf, hu, hd⟩
  | greet interval a => cases a <;> exact ⟨hf, hu, hd⟩
  | beat sequence hl hi => exact ⟨hf, hu, hd⟩
  | connected event ready hs =>
    have hu : isUp ds = false := by obtain rfl | rfl := hs <;> exact hu
    have hd : isSettled ds = false := by obtain rfl | rfl := hs <;> exact hd
    exact ⟨⟨⟨rfl, hd⟩, ⟨hu, hd⟩, hf⟩, rfl, hd⟩
  | event event ready => exact ⟨⟨⟨hu, hd⟩, hf⟩, hu, hd⟩
  | lose i code delay hs hc =>
    rw [hs] at hd
    exact ⟨⟨hd, hf⟩, rfl, (isSettled_closed ds _).trans (by rw [hc, hd]; rfl)⟩
  | fail i code reason hs hc =>
    rw [hs] at hd
    exact ⟨⟨hd, hf⟩, rfl, (isSettled_closed ds _).trans (by rw [hc]; rfl)⟩
  | shutdown code hs hc =>
    rw [hs] at hd
    exact ⟨⟨hd, hf⟩, rfl, (isSettled_closed ds _).trans (by rw [hc]; rfl)⟩

/-- A resumed session is reported only where the handshake was a resume. -/
theorem Transition.resuming {s s' : State} {i : Input} {effects : List Effect}
    (ht : Transition s i s' effects) (hn : ∀ e ∈ effects, e.handshake? = none) :
    (s' = .resuming → s = .resuming) ∧ (.connected true ∈ effects → s = .resuming) := by
  cases ht with
  | stay hr => exact ⟨id, by simp⟩
  | connect url => exact ⟨by simp, by simp⟩
  | reconnect url => exact ⟨by simp, by simp⟩
  | opened => exact ⟨by simp, by simp⟩
  | greet interval a =>
    have hn : a.effect.handshake? = none := hn a.effect (by simp)
    rw [Effect.handshake?_eq_some.2 rfl] at hn
    cases hn
  | beat sequence hl hi => exact ⟨id, by simp⟩
  | connected event ready hs => exact ⟨by simp, by simp⟩
  | event event ready => exact ⟨by simp, by simp⟩
  | lose i code delay hs hc => exact ⟨by simp, by simp⟩
  | fail i code reason hs hc => exact ⟨by simp, by simp⟩
  | shutdown code hs hc => exact ⟨by simp, by simp⟩

def Resumes (log : List Note) : Prop := ∃ id sequence, Called log (.resume id sequence)

theorem Resumes.cons {log : List Note} {n : Note} (h : Resumes log) (ho : n ≠ .opened)
    (hh : ∀ a, n ≠ .hello a) : Resumes (n :: log) := by
  obtain ⟨id, sequence, hc⟩ := h
  exact ⟨id, sequence, hc.cons ho hh⟩

/-- The log tells what the machine has asked for, apart from what is still to be performed. -/
structure Telling (s : Session) (log : List Note) : Prop where
  -- Counts the effects that remain as delivered, so that performing one of them changes nothing.
  tells : Tells (told s.effects ++ log.filterMap Note.pushed?) s.state
  resuming : s.state = .resuming → Resumes log
  resumed : .connected true ∈ s.effects → Resumes log
  marked : Throughout (fun earlier n => n = .pushed (.connected true) → Resumes earlier) log

namespace Telling
variable {s s' : Session} {log : List Note} {n : Note} {x : Surroundings}

theorem start (o : Options) (mode : DispatchMode) (x : Surroundings) :
    Telling (.start o mode x) [] where
  tells := ⟨trivial, rfl, rfl⟩
  resuming h := by cases h
  resumed h := by simp [Session.start, Machine.handle, Machine.create] at h
  marked := trivial

theorem congr {r : Session} (h : Telling s log) (hm : r.machine = s.machine)
    (he : r.effects = s.effects) : Telling r log where
  tells := by rw [Session.state, hm, he]; exact h.tells
  resuming := by rw [Session.state, hm]; exact h.resuming
  resumed := by rw [he]; exact h.resumed
  marked := h.marked

theorem note (h : Telling s log) (hp : n.pushed? = none) (ho : n ≠ .opened)
    (hh : ∀ a, n ≠ .hello a) : Telling s (n :: log) where
  tells := by rw [List.filterMap_cons_none hp]; exact h.tells
  resuming hs := (h.resuming hs).cons ho hh
  resumed he := (h.resumed he).cons ho hh
  marked := ⟨fun hn => by simp [hn, Note.pushed?] at hp, h.marked⟩

theorem opened (h : Telling s log) (he : s.effects = []) (hs : s.state ≠ .resuming) :
    Telling s (.opened :: log) where
  tells := h.tells
  resuming hr := absurd hr hs
  resumed hr := by simp [he] at hr
  marked := ⟨by simp, h.marked⟩

theorem notes {notes : List Note} (h : Telling s log)
    (hn : ∀ n ∈ notes, n.pushed? = none ∧ n ≠ .opened ∧ ∀ a, n ≠ .hello a) :
    Telling s (notes ++ log) := by
  induction notes with
  | nil => exact h
  | cons n notes ih =>
    obtain ⟨hp, ho, hh⟩ := hn n List.mem_cons_self
    exact (ih fun m hm => hn m (List.mem_cons_of_mem n hm)).note hp ho hh

theorem wrote (h : Telling s log) (frames : List Frame) :
    Telling s (frames.map .wrote ++ log) := by
  refine h.notes fun n hn => ?_
  obtain ⟨f, -, rfl⟩ := List.mem_map.1 hn
  exact ⟨rfl, by simp, by simp⟩

theorem push {e : Effect} {effects : List Effect} {d : Delivery} (h : Telling s log)
    (he : s.effects = e :: effects) (hd : e.delivery? = some d) (hm : s'.machine = s.machine)
    (hr : s'.effects = effects) : Telling s' (.pushed d :: log) where
  tells := by
    rw [Session.state, hm, hr]
    simpa [he, told_cons hd, Note.pushed?, Session.state] using h.tells
  resuming := by
    rw [Session.state, hm]
    exact fun hs => (h.resuming hs).cons (by simp) (by simp)
  resumed hc := by
    rw [hr] at hc
    exact (h.resumed (he ▸ List.mem_cons_of_mem e hc)).cons (by simp) (by simp)
  marked := by
    refine ⟨fun hn => h.resumed ?_, h.marked⟩
    obtain rfl := Note.pushed.inj hn
    obtain rfl : e = .connected true := by cases e <;> simp_all [Effect.delivery?]
    simp [he]

theorem pass {e : Effect} {effects : List Effect} (h : Telling s log)
    (he : s.effects = e :: effects) (hd : e.delivery? = none ∨ ∃ event, e = .deliver event)
    (hm : s'.machine = s.machine) (hr : s'.effects = effects) : Telling s' log where
  tells := by
    have ht := h.tells
    rw [Session.state, hm, hr]
    rw [he] at ht
    obtain hd | ⟨event, rfl⟩ := hd
    · rwa [told_cons_none hd] at ht
    · -- The event was a redelivery; what stands around it fits together without it.
      rw [told_cons rfl, List.append_assoc] at ht
      exact ht.drop
  resuming := by rw [Session.state, hm]; exact h.resuming
  resumed hc := h.resumed (by rw [he]; exact List.mem_cons_of_mem e (hr ▸ hc))
  marked := h.marked

theorem perform {e : Effect} {effects : List Effect} (h : Telling s log)
    (he : s.effects = e :: effects) :
    Telling (s.step x .proceed) (s.seen x .proceed ++ log) := by
  obtain ⟨hstep, hnotes⟩ := Session.perform_turn he x
  obtain ⟨hm, hr, -⟩ := Session.perform_keeps { s with effects } x e
  rw [← hstep] at hm hr
  rw [Session.seen, hnotes, List.append_assoc]
  refine Telling.wrote ?_ _
  cases hp : s.pushed? e with
  | some d => exact h.push he (Session.delivery?_of_pushed? hp) hm hr
  | none => exact h.pass he (Session.delivery?_of_not_pushed? hp) hm hr

theorem apply {i : Input} (h : Telling s log) (hs : Shaking s log) (hd : s.doing = .working)
    (he : s.effects = []) (hi : s.inputs = [i]) (hc : i ≠ .connect) :
    Telling (s.step x .proceed) (s.seen x .proceed ++ log) := by
  obtain ⟨machine, effects, hstep, ht, hseen⟩ := Session.apply_turn hd he hi x
  have htells : Tells (told effects ++ log.filterMap Note.pushed?) machine.state := by
    have h := h.tells
    rw [he] at h
    exact h.transition ht hc
  rw [hstep, hseen]
  obtain ⟨interval, a, rfl, hw, hs', rfl⟩ | ⟨hn, -⟩ := ht.handshakes
  · -- A hello is accepted. The state that follows is resuming only if it called for a resume.
    have hcalled := (hs.waiting hw).call a
    rw [filterMap_handshake?]
    refine ⟨htells, fun hr => ?_, fun hm => ?_, by simp, h.marked⟩
    · rw [show machine.state = .resuming from hr] at hs'
      cases a with
      | identify => cases hs'
      | resume id sequence => exact ⟨id, sequence, hcalled⟩
    · cases a <;> simp [Handshake.effect] at hm
  · obtain ⟨hr, hm⟩ := ht.resuming hn
    rw [List.filterMap_eq_nil_iff.2 hn]
    exact ⟨htells, fun h' => h.resuming (hr h'), fun h' => h.resuming (hm h'), h.marked⟩

theorem proceed (h : Telling s log) (hk : Shaking s log) (hst : s.Steady)
    (hd : s.doing = .working) : Telling (s.step x .proceed) (s.seen x .proceed ++ log) := by
  obtain ⟨hi, -⟩ | ⟨i, he, hi, hx⟩ := hst.of_working hd
  · cases he : s.effects with
    | nil =>
      obtain ⟨hstep, hseen⟩ := Session.wait_turn he hi x
      rw [hstep, hseen]
      exact h.congr rfl rfl
    | cons e effects => exact h.perform he
  · refine h.apply hk hd he hi ?_
    rintro rfl
    exact hx

theorem step {w : Wake} (h : Telling s log) (hk : Shaking s log) (hst : s.Steady)
    (ha : s.Allowed x w) : Telling (s.step x w) (s.seen x w ++ log) := by
  by_cases hw : w = .proceed
  · subst hw
    exact h.proceed hk hst ha.doing_proceed
  · obtain ⟨hm, he, -⟩ := s.step_keeps x hw
    by_cases ho : w = .opened
    · subst ho
      obtain ⟨url, hd⟩ := ha.doing_opened
      obtain ⟨he', -, hs, -⟩ := hst.of_connecting hd
      exact (h.opened he' (by simp [hs])).congr hm he
    · rw [Session.seen, List.append_assoc]
      refine ((h.congr hm he).notes fun n hn => ?_).wrote _
      obtain ⟨bytes, rfl⟩ := Session.notes_read hw ho hn
      exact ⟨rfl, by simp, by simp⟩

end Telling

namespace Course

theorem telling_next {c : Course} (h : Telling c.session c.log) (hk : Shaking c.session c.log)
    (hs : c.session.Steady) (a : Act) : Telling (c.next a).session (c.next a).log := by
  cases a with
  | wake x w => exact next_wake (P := fun c => Telling c.session c.log) h (h.step hk hs)
  | receive m => exact h.congr rfl rfl
  | endInbound => exact h.congr rfl rfl
  | leave => exact h.congr rfl rfl
  | call =>
    refine next_call (P := fun c => Telling c.session c.log) h fun d dispatch _ => ?_
    exact (h.congr (r := { c.session with dispatch }) rfl rfl).note (n := .handled d) rfl
      (by simp) (by simp)
  | finish => exact h.congr rfl rfl

end Course

end Parley.Gateway
