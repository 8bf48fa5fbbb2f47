import Parley.Proofs.Cache.Window
import Parley.Proofs.Gateway.Deliveries

/-! Every event that a session reads on a live connection is delivered, in order and once, unless its
key is among those of the last events delivered. -/
namespace Parley.Gateway

/-- The event of a frame, if it is well-formed: its type is there, and a READY says what a resume
takes. -/
def Event.ofFrame? (f : Frame) : Option Event :=
  if f.op = .dispatch then
    f.kind.bind fun kind =>
      if kind = "READY" ∧ f.asReady.toOption = none then none
      else some ⟨kind, f.sequence, f.payload.getD .null⟩
  else none

def Event.ofMessage? (bytes : List UInt8) : Option Event :=
  (Frame.read bytes).toOption.bind Event.ofFrame?

def Input.event? : Input → Option Event
  | dispatch e _ => some e
  | _ => none

def Effect.event? : Effect → Option Event
  | deliver e => some e
  | _ => none

def Delivery.event? : Delivery → Option Event
  | event e => some e
  | _ => none

/-- The event has the key of one of the last deliveries that had one. -/
def Event.isRepeat (capacity : Nat) (before : List Event) (e : Event) : Bool :=
  e.dedupeKey?.any (· ∈ Cache.Dedupe.window capacity (before.filterMap Event.dedupeKey?))

/-- Of the events read, the latest standing first here and below, those that are delivered. -/
def delivered (capacity : Nat) : List Event → List Event
  | [] => []
  | e :: earlier =>
    let before := delivered capacity earlier
    if e.isRepeat capacity before then before else e :: before

theorem Event.ofFrame?_eq (f : Frame) :
    Event.ofFrame? f = (Input.ofFrame? f).bind Input.event? := by
  obtain ⟨op, kind, sequence, payload⟩ := f
  by_cases hop : op = .dispatch
  · subst hop
    cases kind with
    | none => rfl
    | some kind =>
      simp only [Event.ofFrame?, Input.ofFrame?, Option.bind_some, if_true]
      by_cases hr : kind = "READY"
      · cases Frame.asReady ⟨.dispatch, some kind, sequence, payload⟩ with
        | error e => simp [hr, Except.toOption]
        | ok r => simp [hr, Except.toOption, Input.event?]
      · simp [hr, Input.event?]
  · rw [Event.ofFrame?, if_neg hop]
    unfold Input.ofFrame?
    cases op with
    | dispatch => exact absurd rfl hop
    | hello => cases Frame.asHello ⟨.hello, kind, sequence, payload⟩ <;> rfl
    | _ => rfl

theorem Event.ofMessage?_eq (bytes : List UInt8) :
    Event.ofMessage? bytes = (Input.ofMessage? bytes).bind Input.event? := by
  unfold Event.ofMessage? Input.ofMessage?
  rw [Option.bind_assoc, funext Event.ofFrame?_eq]

/-- What comes from an input without an event delivers none. -/
theorem Transition.no_events {s s' : State} {i : Input} {effects : List Effect}
    (ht : Transition s i s' effects) (hi : i.event? = none) : effects.filterMap Effect.event? = [] := by
  cases ht with
  | greet interval a => cases a <;> rfl
  | connected event ready hs => cases hi
  | event event ready => cases hi
  | _ => rfl

/-- A machine on a live connection has every event delivered. -/
theorem Machine.events_handle (m : Machine) (now : Instant) (roll : Nat) (i : Input) :
    (m.handle now roll i).2.filterMap Effect.event? =
      if m.state.isLive then i.event?.toList else [] := by
  cases hi : i.event? with
  | none =>
    rw [(m.transition now roll i).no_events hi]
    split_ifs <;> rfl
  | some e =>
    cases i with
    | dispatch event ready =>
      obtain rfl := Option.some.inj hi
      rw [handle_dispatch]
      split_ifs
      · rw [effects_onDispatch]
        split_ifs <;> rfl
      · rfl
    | _ => cases hi

namespace Session

/-- Events read on a live connection that are still to be delivered or dropped. -/
def undecided (s : Session) : List Event :=
  (if s.state.isLive then s.inputs.filterMap Input.event? else []) ++
    s.effects.filterMap Effect.event?

def incoming? (s : Session) : Option (List UInt8) :=
  match s.inbox.map Inbox.unread with
  | some (.message bytes :: _) => some bytes
  | _ => none

def arrival? (s : Session) : Option Event :=
  if s.state.isLive then s.incoming?.bind Event.ofMessage? else none

variable {s s' : Session} {x : Surroundings} {w : Wake} {e : Effect}

theorem dedupe_perform (h : e.event? = none) (x : Surroundings) :
    (s.perform x e).dedupe = s.dedupe := by
  cases e <;> simp only [perform, shake, push, send]
  case deliver => cases h
  case startHeartbeat => split <;> rfl
  case identify => split <;> rfl
  case resume => split <;> rfl

theorem Allowed.doing_inbound (h : s.Allowed x .inbound) : s.doing = .listening := by
  cases h with
  | source hd hs => exact hd

theorem undecided_of_idle (he : s.effects = []) (hi : s.inputs = []) : s.undecided = [] := by
  simp [undecided, he, hi]

theorem undecided_congr (hs : s'.state = s.state)
    (hi : s'.inputs.filterMap Input.event? = s.inputs.filterMap Input.event?)
    (he : s'.effects.filterMap Effect.event? = s.effects.filterMap Effect.event?) :
    s'.undecided = s.undecided := by
  rw [undecided, undecided, hs, hi, he]

/-- Only a message brings an event, and only deliveries are remembered. -/
theorem step_other (s : Session) (x : Surroundings) (hp : w ≠ .proceed) (hi : w ≠ .inbound) :
    (s.step x w).undecided = s.undecided ∧ (s.step x w).dedupe = s.dedupe := by
  have hk := s.step_keeps x hp
  have hs : (s.step x w).state = s.state := congrArg Machine.state hk.1
  suffices h : (s.step x w).inputs.filterMap Input.event? = s.inputs.filterMap Input.event? ∧
      (s.step x w).dedupe = s.dedupe from ⟨undecided_congr hs h.1 (by rw [hk.2.1]), h.2⟩
  cases w with
  | proceed => exact absurd rfl hp
  | inbound => exact absurd rfl hi
  | throttleClear =>
    simp only [step]
    split <;> exact ⟨rfl, rfl⟩
  | _ => simp [step, resume, Input.event?]

theorem arrival?_of_incoming (h : s.incoming? = none) : s.arrival? = none := by
  rw [arrival?, h, Option.bind_none, ite_self]

theorem undecided_resume (he : s.effects = []) (hi : s.inputs = []) (inputs : List Input) :
    (s.resume inputs).undecided =
      if s.state.isLive then inputs.filterMap Input.event? else [] := by
  simp only [undecided, resume, he, hi, List.nil_append, List.filterMap_nil, List.append_nil]
  rfl

/-- A session that listens takes the next message off its connection. -/
theorem read_listening (he : s.effects = []) (hi : s.inputs = []) :
    s.read.undecided = s.arrival?.toList ∧ s.read.dedupe = s.dedupe := by
  have hidle : s.undecided = [] := undecided_of_idle he hi
  have hclosed (info : CloseInfo) :
      (resume { s with inbox := none } [.closed info]).undecided = [] :=
    (undecided_resume (s := { s with inbox := none }) he hi _).trans (ite_self _)
  unfold read
  cases hb : s.inbox with
  | none =>
    have hn : s.incoming? = none := by simp [incoming?, hb]
    exact ⟨by rw [hidle, arrival?_of_incoming hn]; rfl, rfl⟩
  | some i =>
    dsimp only
    split
    · next bytes unread hu =>
      have hs : s.incoming? = some bytes := by simp [incoming?, hb, hu]
      refine ⟨(undecided_resume (s := { s with inbox := some { i with unread } }) he hi _).trans ?_,
        rfl⟩
      change (if s.state.isLive then _ else _) = _
      rw [arrival?, hs, Option.bind_some, Event.ofMessage?_eq]
      split_ifs
      · cases Input.ofMessage? bytes with
        | none => rfl
        | some input => cases input <;> rfl
      · rfl
    · next info unread hu =>
      have hn : s.incoming? = none := by simp [incoming?, hb, hu]
      exact ⟨by rw [hclosed, arrival?_of_incoming hn]; rfl, rfl⟩
    · next hu =>
      have hn : s.incoming? = none := by simp [incoming?, hb, hu]
      rw [arrival?_of_incoming hn]
      split
      · exact ⟨hclosed _, rfl⟩
      · exact ⟨hidle, rfl⟩

end Session

def eventsOf (log : List Note) : List Event :=
  (log.filterMap Note.pushed?).filterMap Delivery.event?

section Deliver
variable {capacity : Nat} {s : Session} {before : List Event} {event : Event}

theorem Session.pushed?_of_repeat
    (h : s.dedupe.Holds capacity (before.filterMap Event.dedupeKey?))
    (hr : event.isRepeat capacity before = true) : s.pushed? (.deliver event) = none := by
  unfold Event.isRepeat at hr
  cases hk : event.dedupeKey? with
  | none =>
    rw [hk] at hr
    cases hr
  | some key =>
    have hm : key ∈ Cache.Dedupe.window capacity (before.filterMap Event.dedupeKey?) := by
      simpa [hk] using hr
    simp [pushed?, hk, h.refuse hm]

theorem Session.pushed?_of_new
    (h : s.dedupe.Holds capacity (before.filterMap Event.dedupeKey?))
    (hr : event.isRepeat capacity before = false) :
    s.pushed? (.deliver event) = some (.event event) ∧
      (s.deliver event).dedupe.Holds capacity ((event :: before).filterMap Event.dedupeKey?) := by
  unfold Event.isRepeat at hr
  cases hk : event.dedupeKey? with
  | none =>
    rw [List.filterMap_cons_none hk]
    exact ⟨by simp [pushed?, hk], by simpa [deliver, hk, push] using h⟩
  | some key =>
    have hm : key ∉ Cache.Dedupe.window capacity (before.filterMap Event.dedupeKey?) := by
      simpa [hk] using hr
    obtain ⟨dedupe, hadd, hd⟩ := h.accept hm
    rw [List.filterMap_cons_some hk]
    exact ⟨by simp [pushed?, hk, hadd], by simpa [deliver, hk, hadd, push] using hd⟩

end Deliver

/-- The events read so far are those to be decided on and those decided on; of the latter, those
that the log shows have been delivered, and their keys are remembered. -/
structure Ordered (capacity : Nat) (s : Session) (log : List Note) (read : List Event) :
    Prop where
  split : ∃ decided, read = s.undecided ++ decided ∧ eventsOf log = delivered capacity decided
  memory : s.dedupe.Holds capacity ((eventsOf log).filterMap Event.dedupeKey?)
  single : s.undecided.length ≤ 1
  -- The start of a timer may crash the task, and then nothing that remains is performed.
  greeting : ∀ t, .startHeartbeat t ∈ s.effects → s.undecided = []
  crashed : s.doing = .crashed → s.undecided = []

theorem Session.events_seen {s : Session} {e : Effect} {effects : List Effect}
    (he : s.effects = e :: effects) (x : Surroundings) :
    eventsOf (s.seen x .proceed) = ((s.pushed? e).bind Delivery.event?).toList := by
  have hwrote (frames : List Frame) : (frames.map Note.wrote).filterMap Note.pushed? = [] := by
    simp [Note.pushed?]
  rw [eventsOf, seen, (perform_turn he x).2, List.filterMap_append, hwrote]
  cases s.pushed? e with
  | none => rfl
  | some d => cases d <;> rfl

theorem Session.event?_of_pushed? {s : Session} {e : Effect} (he : e.event? = none) :
    (s.pushed? e).bind Delivery.event? = none := by
  cases e with
  | deliver event => cases he
  | _ => rfl

theorem eventsOf_append (later earlier : List Note) :
    eventsOf (later ++ earlier) = eventsOf later ++ eventsOf earlier := by
  simp [eventsOf]

theorem eventsOf_quiet {notes : List Note} (h : ∀ n ∈ notes, n.pushed? = none) :
    eventsOf notes = [] := by
  rw [eventsOf, List.filterMap_eq_nil_iff.2 h]
  rfl

namespace Ordered

variable {capacity : Nat} {s s' : Session} {log notes : List Note} {read : List Event}
  {x : Surroundings} {w : Wake}

theorem start (o : Options) (mode : DispatchMode) (x : Surroundings) :
    Ordered o.dedupeCapacity (.start o mode x) [] [] where
  split := ⟨[], rfl, rfl⟩
  memory := Cache.Dedupe.holds_create o.dedupeCapacity
  single := Nat.zero_le 1
  greeting _ _ := rfl
  crashed _ := rfl

theorem keep (h : Ordered capacity s log read) (hu : s'.undecided = s.undecided)
    (hd : s'.dedupe = s.dedupe) (hn : eventsOf notes = [])
    (hg : ∀ t, .startHeartbeat t ∈ s'.effects → s.undecided = [])
    (hc : s'.doing = .crashed → s.undecided = []) :
    Ordered capacity s' (notes ++ log) read := by
  have hlog : eventsOf (notes ++ log) = eventsOf log := by rw [eventsOf_append, hn, List.nil_append]
  refine ⟨?_, ?_, ?_, ?_, ?_⟩
  · rw [hu, hlog]
    exact h.split
  · rw [hd, hlog]
    exact h.memory
  · rw [hu]
    exact h.single
  · rw [hu]
    exact hg
  · rw [hu]
    exact hc

/-- A task that crashes leaves no event behind. -/
theorem of_crash (h : Ordered capacity s log read) (ha : s.Allowed x w)
    (hc : (s.step x w).doing = .crashed) : s.undecided = [] := by
  obtain ⟨rest, hz⟩ := (Session.doing_step ha).2 hc
  exact h.greeting .zero (hz ▸ List.mem_cons_self)

/-- The event that was read last is delivered or dropped. -/
theorem settle {event : Event} (h : Ordered capacity s log read) (hu : s.undecided = [event])
    (hu' : s'.undecided = [])
    (hr : event.isRepeat capacity (eventsOf log) = true →
      eventsOf notes = [] ∧ s'.dedupe = s.dedupe)
    (hn : event.isRepeat capacity (eventsOf log) = false → eventsOf notes = [event] ∧
      s'.dedupe.Holds capacity ((event :: eventsOf log).filterMap Event.dedupeKey?)) :
    Ordered capacity s' (notes ++ log) read := by
  obtain ⟨decided, hread, hlog⟩ := h.split
  rw [hu] at hread
  suffices hd : eventsOf (notes ++ log) = delivered capacity (event :: decided) ∧
      s'.dedupe.Holds capacity ((eventsOf (notes ++ log)).filterMap Event.dedupeKey?) by
    refine ⟨⟨event :: decided, by rw [hu']; exact hread, hd.1⟩, hd.2, ?_, fun _ _ => hu',
      fun _ => hu'⟩
    rw [hu']
    exact Nat.zero_le 1
  rw [eventsOf_append, delivered, ← hlog]
  cases hrep : event.isRepeat capacity (eventsOf log) with
  | true =>
    obtain ⟨hnotes, hdedupe⟩ := hr hrep
    rw [hnotes, hdedupe]
    exact ⟨rfl, h.memory⟩
  | false =>
    obtain ⟨hnotes, hdedupe⟩ := hn hrep
    rw [hnotes]
    exact ⟨rfl, hdedupe⟩

theorem deliver {event : Event} {effects : List Effect} (h : Ordered capacity s log read)
    (he : s.effects = .deliver event :: effects) (hi : s.inputs = []) :
    Ordered capacity (s.step x .proceed) (s.seen x .proceed ++ log) read := by
  have hstep := (Session.perform_turn he x).1
  obtain ⟨-, hr, hi', -⟩ := Session.perform_keeps { s with effects } x (.deliver event)
  rw [← hstep] at hr hi'
  have hu : s.undecided = event :: effects.filterMap Effect.event? := by
    simp [Session.undecided, he, hi, Effect.event?]
  have hlast : effects.filterMap Effect.event? = [] := by
    have hsingle := h.single
    rw [hu, List.length_cons] at hsingle
    exact List.eq_nil_of_length_eq_zero (by omega)
  have hu' : (s.step x .proceed).undecided = [] := by
    simp [Session.undecided, hr, hi', hi, hlast]
  refine h.settle (by rw [hu, hlast]) hu' (fun hrep => ?_) fun hnew => ?_
  · have hp := Session.pushed?_of_repeat h.memory hrep
    rw [Session.events_seen he, hp, hstep, Session.perform_dropped (s := { s with effects }) hp x]
    exact ⟨rfl, rfl⟩
  · obtain ⟨hp, hd⟩ := Session.pushed?_of_new (s := { s with effects }) h.memory hnew
    have hpushed : s.pushed? (.deliver event) = some (.event event) := hp
    rw [Session.events_seen he, hpushed, hstep]
    exact ⟨rfl, hd⟩

theorem perform {e : Effect} {effects : List Effect} (h : Ordered capacity s log read)
    (ha : s.Allowed x .proceed) (he : s.effects = e :: effects) (hi : s.inputs = []) :
    Ordered capacity (s.step x .proceed) (s.seen x .proceed ++ log) read := by
  cases hev : e.event? with
  | some event =>
    obtain rfl : e = .deliver event := by
      cases e <;> simp_all [Effect.event?]
    exact h.deliver he hi
  | none =>
    have hstep := (Session.perform_turn he x).1
    obtain ⟨hm, hr, hi', -⟩ := Session.perform_keeps { s with effects } x e
    rw [← hstep] at hm hr hi'
    refine h.keep ?_ ?_ ?_ (fun t ht => ?_) fun hc => ?_
    · refine Session.undecided_congr (congrArg Machine.state hm) (by rw [hi']) ?_
      rw [hr, he, List.filterMap_cons_none hev]
    · rw [hstep]
      exact Session.dedupe_perform (s := { s with effects }) hev x
    · rw [Session.events_seen he, Session.event?_of_pushed? hev]
      rfl
    · rw [hr] at ht
      exact h.greeting t (he ▸ List.mem_cons_of_mem e ht)
    · exact h.of_crash ha hc

theorem apply {i : Input} (h : Ordered capacity s log read) (hd : s.doing = .working)
    (he : s.effects = []) (hi : s.inputs = [i]) :
    Ordered capacity (s.step x .proceed) (s.seen x .proceed ++ log) read := by
  have hstep : s.step x .proceed =
      { s with machine := (s.machine.handle x.now x.roll i).1,
               effects := (s.machine.handle x.now x.roll i).2, inputs := [] } := by
    simp [Session.step, Session.proceed, he, hi]
  have hu : s.undecided = if s.machine.state.isLive then i.event?.toList else [] := by
    simp only [Session.undecided, Session.state, he, hi]
    split_ifs
    · cases h : i.event? <;> simp [h]
    · rfl
  refine h.keep ?_ ?_ (eventsOf_quiet fun n hn => (Session.seen_quiet (fun _ => he) hn).1) ?_ ?_
  · rw [hu, hstep, Session.undecided, ← s.machine.events_handle x.now x.roll i]
    simp
  · rw [hstep]
  · intro t ht
    rw [hstep] at ht
    obtain rfl := (s.machine.transition x.now x.roll i).startHeartbeat ht
    rw [hu]
    exact ite_self _
  · rw [hstep]
    exact fun hc => by cases hd.symm.trans hc

theorem proceed (h : Ordered capacity s log read) (hst : s.Steady) (ha : s.Allowed x .proceed) :
    Ordered capacity (s.step x .proceed) (s.seen x .proceed ++ log) read := by
  obtain ⟨hi, -⟩ | ⟨i, he, hi, -⟩ := hst.of_working ha.doing_proceed
  · cases he : s.effects with
    | cons e effects => exact h.perform ha he hi
    | nil =>
      obtain ⟨hstep, hseen⟩ := Session.wait_turn he hi x
      rw [hstep, hseen]
      refine h.keep rfl rfl rfl h.greeting fun hc => ?_
      exact Session.undecided_of_idle he hi
  · exact h.apply ha.doing_proceed he hi

/-- What the connection brings is what has been read last. -/
theorem listen (h : Ordered capacity s log read) (hst : s.Steady) (ha : s.Allowed x .inbound) :
    Ordered capacity (s.step x .inbound) (s.seen x .inbound ++ log)
      (s.arrival?.toList ++ read) := by
  obtain ⟨he, hi, -⟩ := hst.of_listening ha.doing_inbound
  have hidle : s.undecided = [] := Session.undecided_of_idle he hi
  obtain ⟨hu, hd⟩ := Session.read_listening he hi
  have he' : (s.step x .inbound).effects = [] :=
    (s.step_keeps x (by simp)).2.1.trans he
  have hn : eventsOf (s.seen x .inbound ++ log) = eventsOf log := by
    rw [eventsOf_append,
      eventsOf_quiet fun n hn => (Session.seen_quiet (fun hw => by cases hw) hn).1,
      List.nil_append]
  refine ⟨?_, ?_, ?_, fun t ht => ?_, fun hc => ?_⟩
  · obtain ⟨decided, hread, hlog⟩ := h.split
    rw [hidle, List.nil_append] at hread
    exact ⟨decided, by rw [hread, Session.step, hu], hn.trans hlog⟩
  · rw [hn, Session.step, hd]
    exact h.memory
  · rw [Session.step, hu]
    cases s.arrival? with
    | none => exact Nat.zero_le 1
    | some e => exact Nat.le_refl 1
  · rw [he'] at ht
    exact absurd ht List.not_mem_nil
  · obtain ⟨rest, hz⟩ := (Session.doing_step ha).2 hc
    rw [he] at hz
    cases hz

/-- Whatever else wakes the session brings no event. -/
theorem other (h : Ordered capacity s log read) (ha : s.Allowed x w) (hp : w ≠ .proceed)
    (hi : w ≠ .inbound) : Ordered capacity (s.step x w) (s.seen x w ++ log) read := by
  obtain ⟨hu, hd⟩ := s.step_other x hp hi
  have he := (s.step_keeps x hp).2.1
  refine h.keep hu hd ?_ ?_ fun hc => ?_
  · exact eventsOf_quiet fun n hn => (Session.seen_quiet (fun hw => absurd hw hp) hn).1
  · rw [he]
    exact h.greeting
  · exact h.of_crash ha hc

theorem congr (h : Ordered capacity s log read) (hu : s'.undecided = s.undecided)
    (hd : s'.dedupe = s.dedupe) (he : s'.effects = s.effects) (ho : s'.doing = s.doing) :
    Ordered capacity s' log read := by
  have hk : Ordered capacity s' ([] ++ log) read :=
    h.keep hu hd rfl (he ▸ h.greeting) fun hc => h.crashed (ho ▸ hc)
  exact hk

end Ordered

namespace Course

def arrival? (c : Course) : Act → Option Event
  | .wake x .inbound => if c.session.allows x .inbound then c.session.arrival? else none
  | _ => none

def arrivals (c : Course) : List Act → List Event
  | [] => []
  | a :: acts => (c.next a).arrivals acts ++ (c.arrival? a).toList

def events (c : Course) : List Event := c.pushed.filterMap Delivery.event?

variable {capacity : Nat} {read : List Event}

end Course

end Parley.Gateway
