import Parley.Proofs.Rest.Traffic

/-! Once the whole account has been refused, no request is sent before the refusal ends: every way
to a send passes the gate after the last wait, and nobody can open the gate early. -/
namespace Parley.Rest

namespace Gate

def Covers (g : Gate) (until_ : Instant) : Prop := ∃ t, g.blocked = some t ∧ until_ ≤ t

variable {g : Gate} {until_ now : Instant}

theorem covers_trip (g : Gate) (until_ : Instant) : (g.trip until_).Covers until_ := by
  unfold trip
  split
  · next current h =>
    split_ifs with hlt
    · exact ⟨until_, rfl, Nat.le_refl until_.nanos⟩
    · exact ⟨current, h, Instant.le_of_not_lt hlt⟩
  · exact ⟨until_, rfl, Nat.le_refl until_.nanos⟩

/-- A later trip, whenever it ends, does not shorten a block. -/
theorem Covers.trip (h : g.Covers until_) (other : Instant) : (g.trip other).Covers until_ := by
  obtain ⟨t, ht, hle⟩ := h
  unfold Gate.trip
  rw [ht]
  dsimp only
  split_ifs with hlt
  · have hto : t ≤ other := Nat.le_of_lt hlt
    exact ⟨other, rfl, Instant.le_trans hle hto⟩
  · exact ⟨t, ht, hle⟩

theorem Covers.blockedUntil (h : g.Covers until_) (hn : now < until_) :
    ∃ t, g.blockedUntil now = (g, some t) ∧ until_ ≤ t := by
  obtain ⟨t, ht, hle⟩ := h
  have hlt := Instant.lt_of_lt_of_le hn hle
  exact ⟨t, by simp [Gate.blockedUntil, ht, hlt], hle⟩

theorem Covers.look (h : g.Covers until_) (hn : now < until_) :
    (g.blockedUntil now).1.Covers until_ := by
  obtain ⟨t, ht, -⟩ := h.blockedUntil hn
  rw [ht]
  exact h

end Gate

namespace Queue

variable {q q' : Queue} {now until_ : Instant}

theorem Edit.covers (h : Edit now q q') (hn : now < until_) (hc : q.gate.Covers until_) :
    q'.gate.Covers until_ := by
  cases h with
  | look => exact hc.look hn
  | trip until' => exact hc.trip until'
  | resolve key => exact hc
  | unify number hash => exact hc
  | serve h hb => exact hc

theorem Edits.covers (h : Edits now q q') (hn : now < until_) (hc : q.gate.Covers until_) :
    q'.gate.Covers until_ := by
  induction h with
  | refl => exact hc
  | tail _ he ih => exact he.covers hn ih

theorem Move.covers (h : Move now q q') (hn : now < until_) (hc : q.gate.Covers until_) :
    q'.gate.Covers until_ := by
  cases h with
  | edits h => exact h.covers hn hc
  | close reason => exact hc
  | cleanup idle => exact hc

end Queue

namespace Submission

def isSending (s : Submission) : Bool :=
  match s.phase with
  | .sending _ => true
  | _ => false

variable {q : Queue} {id : Nat} {s : Submission} {now until_ : Instant}

theorem exists_lane_of_isSending (h : s.isSending = true) : ∃ lane, s.phase = .sending lane := by
  unfold isSending at h
  split at h
  · next lane hp => exact ⟨lane, hp⟩
  · simp at h

@[simp] theorem isSending_finish (s : Submission) (result : Outcome) :
    (s.finish result).isSending = false := rfl

@[simp] theorem isSending_again (q : Queue) (s : Submission) (now : Instant) :
    (s.again q now).isSending = false := by
  unfold again
  split <;> rfl

theorem not_sending_launch (hc : q.gate.Covers until_) (hn : now < until_) (lane : Nat) :
    (launch q id s lane now).2.isSending = false := by
  obtain ⟨t, ht, -⟩ := hc.blockedUntil hn
  unfold launch
  simp only [ht, Option.isSome_some, if_true]
  split_ifs <;> rfl

theorem not_sending_settle (hc : q.gate.Covers until_) (hn : now < until_) (number : Nat)
    (place : Lane × Place) : (settle q id s number now place).2.isSending = false := by
  obtain ⟨lane, place⟩ := place
  cases place with
  | inLine => rfl
  | asleep t => rfl
  | granted =>
    have hg : Gate.Covers { q with registry := q.registry.setLane number lane }.gate until_ := hc
    exact not_sending_launch hg hn number
  | refused e => rfl

theorem not_sending_ask (hc : q.gate.Covers until_) (hn : now < until_) (number : Nat) :
    (ask q id s number now).2.isSending = false := by
  unfold ask
  split
  · exact not_sending_settle hc hn number _
  · rfl

theorem not_sending_enter (hc : q.gate.Covers until_) (hn : now < until_) :
    (enter q id s now).2.isSending = false := by
  obtain ⟨t, ht, -⟩ := hc.blockedUntil hn
  unfold enter
  split
  · rfl
  · simp only [ht]
    split <;> rfl

theorem not_sending_onResponse (q : Queue) (s : Submission) (lane : Nat) (r : Response)
    (now : Instant) : (onResponse q s lane r now).2.isSending = false := by
  unfold onResponse
  split
  · rfl
  · split_ifs <;> simp

theorem not_sending_land (q : Queue) (id : Nat) (s : Submission) (lane : Nat) (outcome : Outcome)
    (now : Instant) : (land q id s lane outcome now).2.isSending = false := by
  cases outcome with
  | ok r => exact not_sending_onResponse _ s lane r now
  | error e =>
    simp only [land, onFailure]
    split_ifs <;> simp

theorem not_sending_abort (q : Queue) (id : Nat) (s : Submission) (e : ClientError)
    (now : Instant) : (abort q id s e now).2.isSending = false := by
  unfold abort
  split
  · rfl
  · rfl
  · exact not_sending_land q id s _ _ now
  · rfl

/-- A send that is under way ends with the step. -/
theorem not_sending_after_send {lane : Nat} {wake : Wake} (hp : s.phase = .sending lane)
    (ha : s.allows q id now wake = true) : (step q id s now wake).2.isSending = false := by
  have hw : s.isWaiting = true := by simp [isWaiting, hp]
  cases wake with
  | ready => simp [allows, hp] at ha
  | timer => simp [allows, hp] at ha
  | turn => simp [allows, hp] at ha
  | deadline => simp [allows, hp] at ha
  | answered outcome =>
    simp only [step, hp]
    exact not_sending_land q id s lane outcome now
  | canceled =>
    simp only [step, hp, hw, if_true]
    exact not_sending_abort q id s .canceled now
  | closed =>
    simp only [allows, hw, Bool.true_and, Queue.isClosed, Option.isSome_iff_exists] at ha
    obtain ⟨reason, hr⟩ := ha
    simp only [step, hp, Queue.failure?, hr, Option.map_some, hw, if_true]
    exact not_sending_abort q id s reason.duplicate now

theorem not_sending_step (hc : q.gate.Covers until_) (hn : now < until_) {wake : Wake}
    (ha : s.allows q id now wake = true) : (step q id s now wake).2.isSending = false := by
  cases hs : s.isSending with
  | true =>
    obtain ⟨lane, hp⟩ := exists_lane_of_isSending hs
    exact not_sending_after_send hp ha
  | false =>
    unfold step
    split
    · split <;> rfl
    · exact not_sending_enter hc hn
    · exact not_sending_enter hc hn
    · exact not_sending_ask hc hn _
    · exact not_sending_ask hc hn _
    · exact not_sending_land q id s _ _ now
    · exact not_sending_abort q id s .timeout now
    · split_ifs
      · exact not_sending_abort q id s .canceled now
      · exact hs
    · split
      · split_ifs
        · exact not_sending_abort q id s _ now
        · exact hs
      · exact hs
    · exact hs

end Submission

namespace Queue

theorem covers_charge {q q' : Queue} {lane : Nat} {info : RateLimit} {now : Instant} {b : Booked}
    (hg : info.isGlobal = true) (h : q.charge lane info true now = (q', some b)) :
    q'.gate.Covers (now.plus (info.backoff?.getD q.registry.backoff)) := by
  unfold charge at h
  split at h
  · simp at h
  · split at h
    · simp at h
    · simp only [if_true, hg] at h
      split at h
      · simp at h
      · next reset hr =>
        rw [← Instant.after?_eq_some hr, ← (Prod.mk.inj h).1]
        exact Gate.covers_trip q.gate reset

theorem covers_book {q q' : Queue} {lane : Nat} {key : BucketKey} {r : Response} {now : Instant}
    {b : Booked} (hr : r.isRefusal = true) (hg : (infoOf r).isGlobal = true)
    (h : q.book lane key r now = (q', some b)) :
    q'.gate.Covers (now.plus ((infoOf r).backoff?.getD q.registry.backoff)) := by
  unfold book at h
  dsimp only at h
  rw [hr] at h
  split at h
  · next hash _ =>
    have hc := covers_charge hg h
    rwa [Registry.backoff_unify] at hc
  · exact covers_charge hg h

end Queue

namespace Traffic

def Launches (x : Traffic) (e : Event) : Prop :=
  ∃ id wake s, e.act = .wake id wake ∧ x.submissions id = some s ∧
    s.allows x.queue id e.time wake = true ∧ (s.step x.queue id e.time wake).2.isSending = true

/-- At this instant a request is told that the whole account is refused, and takes it in. -/
structure GlobalRefusal (x : Traffic) (t : Instant) (id : Nat) (r : Response) : Prop where
  sending : ∃ s lane, x.submissions id = some s ∧ s.phase = .sending lane
  isRefusal : r.isRefusal = true
  isGlobal : (Queue.infoOf r).isGlobal = true
  /-- No wait past the clock's range breaks the booking off. -/
  processed : ∀ s, (x.next ⟨t, .wake id (.answered (.ok r))⟩).submissions id = some s →
    s.phase ≠ .lost

variable {x : Traffic} {t u : Instant} {id : Nat} {r : Response}

def refusalEnd (x : Traffic) (t : Instant) (r : Response) : Instant :=
  t.plus ((Queue.infoOf r).backoff?.getD x.queue.registry.backoff)

theorem GlobalRefusal.covers (h : x.GlobalRefusal t id r) :
    (x.next ⟨t, .wake id (.answered (.ok r))⟩).queue.gate.Covers (x.refusalEnd t r) := by
  obtain ⟨⟨s, lane, hs, hp⟩, hr, hg, hl⟩ := h
  have ha : s.allows x.queue id t (.answered (.ok r)) = true := by simp [Submission.allows, hp]
  have hstep : s.step x.queue id t (.answered (.ok r)) = s.land x.queue id lane (.ok r) t := by
    simp only [Submission.step, hp]
  have hx : x.next ⟨t, .wake id (.answered (.ok r))⟩ =
      x.put id (s.land x.queue id lane (.ok r) t) := by
    simp only [next, hs, ha, if_true, hstep]
  rw [hx] at hl ⊢
  have hlost := hl _ (x.submissions_put id _)
  simp only [Submission.land] at hlost ⊢
  rw [queue_put, Submission.onResponse_queue]
  unfold Submission.onResponse at hlost
  split at hlost
  · simp at hlost
  · next q' b hb =>
    have hc := Queue.covers_book hr hg hb
    rw [hb]
    exact hc

theorem not_launches (hc : x.queue.gate.Covers u) {e : Event} (he : e.time < u) :
    ¬ x.Launches e := by
  intro h
  obtain ⟨id, wake, s, -, -, ha, hl⟩ := h
  rw [Submission.not_sending_step hc he ha] at hl
  simp at hl

/-- Once a request has been told that the whole account is refused, nothing is sent, on whatever
lane, before the refusal ends; and until then the gate is seen to be blocked at least so long,
whatever other refusals and trips come in. -/
theorem global_refusal_holds_every_send (h : x.GlobalRefusal t id r) {between : List Event}
    {e : Event} (ho : InOrder (⟨t, .wake id (.answered (.ok r))⟩ :: between ++ [e])) :
    let y := x.run (⟨t, .wake id (.answered (.ok r))⟩ :: between)
    (y.Launches e → x.refusalEnd t r ≤ e.time) ∧
      (e.time < x.refusalEnd t r →
        ∃ u, (y.queue.gate.blockedUntil e.time).2 = some u ∧ x.refusalEnd t r ≤ u) := by
  dsimp only
  have hle := ho.le_of_snoc (List.prefix_refl _)
  have hcover : e.time < x.refusalEnd t r →
      (x.run (⟨t, .wake id (.answered (.ok r))⟩ :: between)).queue.gate.Covers
        (x.refusalEnd t r) := by
    intro hlt
    refine run_keeps (P := fun q => q.gate.Covers (x.refusalEnd t r)) _ between h.covers ?_
    intro d hd q q' hm hq
    have hearly : d.time < x.refusalEnd t r :=
      Nat.lt_of_le_of_lt (hle d (List.mem_cons_of_mem _ hd)) hlt
    exact hm.covers hearly hq
  constructor
  · intro hl
    apply Instant.le_of_not_lt
    intro hlt
    exact not_launches (hcover hlt) hlt hl
  · intro hlt
    obtain ⟨u, hu, hle⟩ := (hcover hlt).blockedUntil hlt
    exact ⟨u, by rw [hu], hle⟩

/-- One request is with the transport, and another one is about to pass the gate. -/
def twoRequests : Traffic :=
  (create (.ofMillis 750)).run
    (sendOf 0 (plainRequest .get "/users") ++
      [⟨⟨0⟩, .submit 1 (plainRequest .get "/gateway")⟩, ⟨⟨0⟩, .wake 1 .ready⟩])

def fiveSecondsForAll : Response :=
  ⟨429, { RateLimit.silent with isGlobal := true, retryAfter := some (.ofSecs 5) }, []⟩

/-- The other request is not sent after a second, but after five. -/
theorem twoRequests_wait_for_global_refusal :
    let told : Event := ⟨⟨10⟩, .wake 0 (.answered (.ok fiveSecondsForAll))⟩
    let y := twoRequests.run [told, ⟨⟨20⟩, .trip ⟨30⟩⟩]
    twoRequests.GlobalRefusal ⟨10⟩ 0 fiveSecondsForAll ∧
      InOrder [told, ⟨⟨20⟩, .trip ⟨30⟩⟩, ⟨.ofMillis 1000, .wake 1 .ready⟩] ∧
      ¬ y.Launches ⟨.ofMillis 1000, .wake 1 .ready⟩ ∧
      (∃ u, (y.queue.gate.blockedUntil (.ofMillis 1000)).2 = some u ∧
        twoRequests.refusalEnd ⟨10⟩ fiveSecondsForAll ≤ u) ∧
      y.Launches ⟨.ofMillis 6000, .wake 1 .ready⟩ := by
  dsimp only
  have hx : twoRequests.GlobalRefusal ⟨10⟩ 0 fiveSecondsForAll := by
    refine ⟨⟨_, 0, rfl, rfl⟩, rfl, rfl, ?_⟩
    intro s hs
    cases hs
    decide
  have ho : InOrder ([(⟨⟨10⟩, .wake 0 (.answered (.ok fiveSecondsForAll))⟩ : Event),
      ⟨⟨20⟩, .trip ⟨30⟩⟩] ++ [⟨.ofMillis 1000, .wake 1 .ready⟩]) := by
    simp [InOrder, Instant.le_iff, Instant.ofMillis]
  obtain ⟨hl, hb⟩ := global_refusal_holds_every_send hx ho
  refine ⟨hx, ho, fun h => absurd (hl h) (by decide), hb (by decide), ?_⟩
  exact ⟨1, .ready, _, rfl, rfl, rfl, rfl⟩

end Traffic

end Parley.Rest
