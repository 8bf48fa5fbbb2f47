import Parley.Proofs.Rest.Admissions

/-! What a step of a request does to the bucket of a lane. It asks the bucket for a slot, and may give
the slot back at once; it gives back the slot with which it was sent; or it leaves the bucket alone. -/
namespace Parley.Rest

namespace Lane

inductive Tried (b : Bucket) (now : Instant) : Lane × Place → Prop
  | granted {l : Lane} (hb : l.bucket = (b.tryAdmit now).1) (hg : b.grants now) :
      Tried b now (l, .granted)
  | asleep {l : Lane} {u : Instant} (hb : l.bucket = (b.tryAdmit now).1)
      (hw : (b.tryAdmit now).2 = .waitUntil u) : Tried b now (l, .asleep u)
  | refused {l : Lane} {u : Instant} {e : ClientError} (hb : l.bucket = (b.tryAdmit now).1)
      (hw : (b.tryAdmit now).2 = .waitUntil u) : Tried b now (l, .refused e)

variable {l : Lane} {request : Nat} {terms : Terms} {signals : Signals} {now : Instant}

theorem ask_of_failure {e : ClientError} (hf : terms.failure? signals now = some e) :
    l.ask request terms signals now = (l.leave request, .refused e) := by
  simp only [ask, hf]

theorem tried_ask (l : Lane) (request : Nat) (hf : terms.failure? signals now = none) :
    Tried l.bucket now (l.ask request terms signals now) := by
  unfold ask
  simp only [hf]
  split
  · next bucket ha => exact .granted (by simp [ha, leave]) (by simp [Bucket.grants, ha])
  · next bucket reset ha =>
    split
    · exact .refused (u := reset) (by simp [ha, leave]) (by simp [ha])
    · exact .asleep (by simp [ha]) (by simp [ha])

theorem arrive_cases (l : Lane) (request : Nat) (hf : terms.failure? signals now = none) :
    l.arrive request terms signals now = ({ l with line := l.line ++ [request] }, .inLine) ∨
      Tried l.bucket now (l.arrive request terms signals now) := by
  unfold arrive
  simp only [hf]
  split
  · exact Or.inr (tried_ask { l with line := l.line ++ [request] } request hf)
  · exact Or.inl rfl

theorem Tried.bucket {b : Bucket} {answer : Lane × Place} (h : Tried b now answer) :
    answer.1.bucket = (b.tryAdmit now).1 := by
  cases h with
  | granted hb => exact hb
  | asleep hb => exact hb
  | refused hb => exact hb

theorem Tried.granted_iff {b : Bucket} {answer : Lane × Place} (h : Tried b now answer) :
    answer.2 = .granted ↔ b.grants now := by
  cases h with
  | granted hb hg => exact ⟨fun _ => hg, fun _ => rfl⟩
  | asleep hb hw => simp [Bucket.grants, hw]
  | refused hb hw => simp [Bucket.grants, hw]

theorem Tried.waitUntil {b : Bucket} {answer : Lane × Place} (h : Tried b now answer) {u : Instant}
    (hu : answer.2 = .asleep u) : (b.tryAdmit now).2 = .waitUntil u := by
  cases h with
  | granted => simp at hu
  | asleep hb hw =>
    obtain rfl := Place.asleep.inj hu
    exact hw
  | refused => simp at hu

theorem Tried.ne_inLine {b : Bucket} {answer : Lane × Place} (h : Tried b now answer) :
    answer.2 ≠ .inLine := by
  cases h <;> simp

end Lane

namespace Registry

variable {r : Registry} {number : Nat} {b : Bucket}

theorem bucketOf?_setLane (r : Registry) (number other : Nat) (lane : Lane) :
    (r.setLane number lane).bucketOf? other =
      if number = other then some lane.bucket else r.bucketOf? other := by
  unfold bucketOf?
  rw [lane?_setLane]
  split_ifs <;> rfl

theorem bucketOf?_modifyLane (r : Registry) (number other : Nat) (f : Lane → Lane)
    (g : Bucket → Bucket) (hf : ∀ l, (f l).bucket = g l.bucket) :
    (r.modifyLane number f).bucketOf? other =
      if number = other then (r.bucketOf? other).map g else r.bucketOf? other := by
  cases hl : r.lane? number with
  | none =>
    rw [modifyLane_of_none hl]
    split_ifs with h
    · simp [bucketOf?, ← h, hl]
    · rfl
  | some lane =>
    rw [modifyLane_of_some hl, bucketOf?_setLane]
    split_ifs with h
    · simp [bucketOf?, ← h, hl, hf]
    · rfl

theorem bucketOf?_modifyLane_of_keeps (r : Registry) (number other : Nat) (f : Lane → Lane)
    (hf : ∀ l, (f l).bucket = l.bucket) :
    (r.modifyLane number f).bucketOf? other = r.bucketOf? other := by
  rw [bucketOf?_modifyLane r number other f id hf]
  simp

theorem bucketOf?_refund (r : Registry) (number other : Nat) :
    (r.modifyLane number .refund).bucketOf? other =
      if number = other then (r.bucketOf? other).map Bucket.refund else r.bucketOf? other :=
  bucketOf?_modifyLane r number other .refund Bucket.refund fun _ => rfl

theorem WellFormed.bucketOf?_resolve (h : r.WellFormed) (hb : r.bucketOf? number = some b)
    (key : BucketKey) (now : Instant) : (r.resolve key now).1.bucketOf? number = some b := by
  obtain ⟨lane, hl, rfl⟩ := bucketOf?_eq_some.mp hb
  exact bucketOf?_eq_some.mpr ⟨lane, h.lane?_resolve hl key now, rfl⟩

end Registry

namespace Submission

variable {q : Queue} {id n number : Nat} {s : Submission} {now : Instant} {wake : Wake}
  {a : Question} {b : Bucket}

/-- The question reaches the bucket: the request may go on, and stands at the head of the line. -/
def Tries (q : Queue) (s : Submission) (now : Instant) (a : Question) : Prop :=
  s.terms.failure? (s.signals q) now = none ∧ a.answer.2 ≠ .inLine

instance (q : Queue) (s : Submission) (now : Instant) (a : Question) :
    Decidable (Tries q s now a) :=
  inferInstanceAs (Decidable (_ ∧ _))

/-- The bucket of the lane answers, if the question reaches it. -/
theorem question_answers (h : question? q id s now wake = some a)
    (hb : a.queue.registry.bucketOf? a.lane = some b) :
    Tries q s now a ∧ Lane.Tried b now a.answer ∨
      ¬ Tries q s now a ∧ a.answer.1.bucket = b ∧
        (a.answer.2 = .inLine ∨ ∃ e, a.answer.2 = .refused e) := by
  obtain ⟨lane, hl, ha⟩ := question_cases h
  obtain ⟨lane', hl', rfl⟩ := Registry.bucketOf?_eq_some.mp hb
  obtain rfl := Option.some.inj (hl.symm.trans hl')
  cases hf : s.terms.failure? (s.signals q) now with
  | none =>
    obtain ⟨-, -, ha⟩ | ⟨-, -, ha⟩ := ha
    · rcases lane.arrive_cases id hf with hj | ht
      · rw [hj] at ha
        exact Or.inr ⟨by simp [Tries, ha], by simp [ha], Or.inl (by simp [ha])⟩
      · rw [← ha] at ht
        exact Or.inl ⟨⟨hf, ht.ne_inLine⟩, ht⟩
    · have ht := lane.tried_ask id hf
      rw [← ha] at ht
      exact Or.inl ⟨⟨hf, ht.ne_inLine⟩, ht⟩
  | some e =>
    obtain ⟨-, -, ha⟩ | ⟨-, -, ha⟩ := ha
    · have hr : lane.arrive id s.terms (s.signals q) now = (lane, .refused e) := by
        simp only [Lane.arrive, hf]
      rw [hr] at ha
      exact Or.inr ⟨by simp [Tries, hf], by simp [ha], Or.inr ⟨e, by simp [ha]⟩⟩
    · rw [Lane.ask_of_failure hf] at ha
      exact Or.inr ⟨by simp [Tries, hf], by simp [ha, Lane.leave], Or.inr ⟨e, by simp [ha]⟩⟩

/-- The request is sent with its slot, or gives the slot back and begins a new round. -/
theorem launch_cases (q : Queue) (id : Nat) (s : Submission) (number : Nat) (now : Instant) :
    (launch q id s number now).2.phase = .sending number ∧
        (launch q id s number now).1.registry =
          (q.registry.resolve s.key now).1.modifyLane number (·.launch id) ∨
      (launch q id s number now).2.phase = .entering ∧
        (launch q id s number now).1.registry =
          (q.registry.resolve s.key now).1.modifyLane number .refund := by
  unfold launch
  dsimp only
  split
  · exact Or.inr ⟨rfl, rfl⟩
  · split
    · exact Or.inr ⟨rfl, rfl⟩
    · exact Or.inl ⟨rfl, rfl⟩

theorem bucketOf?_launch (hw : q.registry.WellFormed) (hb : q.registry.bucketOf? n = some b) :
    (launch q id s number now).1.registry.bucketOf? n =
      some (if number = n ∧ (launch q id s number now).2.isSending = false
        then b.refund else b) := by
  have hr := hw.bucketOf?_resolve hb s.key now
  rcases launch_cases q id s number now with ⟨hp, hq⟩ | ⟨hp, hq⟩
  · rw [hq, Registry.bucketOf?_modifyLane_of_keeps _ number n (·.launch id) fun _ => rfl, hr]
    simp [isSending, hp]
  · rw [hq, Registry.bucketOf?_refund, hr]
    simp only [isSending, hp, and_true]
    split_ifs <;> rfl

theorem bucketOf?_settle (hw : q.registry.WellFormed) (id : Nat) (s : Submission) (now : Instant)
    {lane : Lane} {place : Lane × Place}
    (hl : q.registry.lane? number = some lane) (hk : place.1.bucket.key = lane.bucket.key)
    (hb : q.registry.bucketOf? n = some b) :
    let c := if number = n then place.1.bucket else b
    let (q', s') := settle q id s number now place
    q'.registry.bucketOf? n =
      some (if number = n ∧ place.2 = .granted ∧ s'.isSending = false then c.refund else c) := by
  obtain ⟨lane', place⟩ := place
  have hw' : (q.registry.setLane number lane').WellFormed := hw.setLane hl hk
  have hb' : (q.registry.setLane number lane').bucketOf? n =
      some (if number = n then lane'.bucket else b) := by
    rw [Registry.bucketOf?_setLane, hb]
    split_ifs <;> rfl
  cases place with
  | inLine => simpa [settle] using hb'
  | asleep t => simpa [settle] using hb'
  | granted => simpa [settle] using bucketOf?_launch hw' hb'
  | refused e => simpa [settle] using hb'

theorem bucketOf?_asked (hw : q.registry.WellFormed) (hb : q.registry.bucketOf? n = some b)
    (h : question? q id s now wake = some a) :
    a.queue.registry.WellFormed ∧ a.queue.registry.bucketOf? n = some b := by
  obtain ⟨-, -, ⟨hq, -⟩ | ⟨hq, -⟩⟩ := question_cases h
  · rw [hq]
    exact ⟨hw.resolve s.key now, hw.bucketOf?_resolve hb s.key now⟩
  · rw [hq]
    exact ⟨hw, hb⟩

/-- A lane grants the slots that its bucket grants. -/
theorem granted_iff (hw : q.registry.WellFormed) (hb : q.registry.bucketOf? n = some b)
    (h : question? q id s now wake = some a) (hn : a.lane = n) :
    a.answer.2 = .granted ↔ Tries q s now a ∧ b.grants now := by
  rcases question_answers h (hn ▸ (bucketOf?_asked hw hb h).2) with
    ⟨ht, hd⟩ | ⟨ht, -, hi | ⟨e, hr⟩⟩
  · simp only [ht, true_and, hd.granted_iff]
  · simp [ht, hi]
  · simp [ht, hr]

/-- The bucket that is asked for a slot takes note of it, and gets the slot back if the request is
not sent with it. -/
theorem bucketOf?_of_question (hw : q.registry.WellFormed) (hb : q.registry.bucketOf? n = some b)
    (h : question? q id s now wake = some a) :
    let c := if a.lane = n ∧ Tries q s now a then (b.tryAdmit now).1 else b
    (step q id s now wake).1.registry.bucketOf? n =
      some (if a.lane = n ∧ a.answer.2 = .granted ∧ (step q id s now wake).2.isSending = false
        then c.refund else c) := by
  obtain ⟨hw', hb'⟩ := bucketOf?_asked hw hb h
  obtain ⟨lane, hl, -⟩ := question_cases h
  have hk : a.answer.1.bucket.key = lane.bucket.key := by
    rcases question_answers h (Registry.bucketOf?_eq_some.mpr ⟨lane, hl, rfl⟩) with
      ⟨-, hd⟩ | ⟨-, heq, -⟩
    · rw [hd.bucket, Bucket.key_tryAdmit]
    · rw [heq]
  have hc : (if a.lane = n then a.answer.1.bucket else b) =
      if a.lane = n ∧ Tries q s now a then (b.tryAdmit now).1 else b := by
    by_cases hn : a.lane = n
    · rcases question_answers h (hn ▸ hb') with ⟨ht, hd⟩ | ⟨ht, heq, -⟩
      · simp only [hn, ht, and_self, if_true, hd.bucket]
      · simp only [hn, ht, and_false, if_true, if_false, heq]
    · simp only [hn, false_and, if_false]
  have hs := bucketOf?_settle hw' id s now hl hk hb'
  rw [← step_of_question h, hc] at hs
  exact hs

/-- A step in which the request asks for no slot and holds none leaves all buckets alone. -/
theorem bucketOf?_of_silent (hw : q.registry.WellFormed) (hb : q.registry.bucketOf? n = some b)
    (h : question? q id s now wake = none) (hs : s.isSending = false) :
    (step q id s now wake).1.registry.bucketOf? n = some b := by
  have henter (hk : knocks? q id s now = none) :
      (enter q id s now).1.registry.bucketOf? n = some b := by
    by_cases hc : s.terms.failure? (s.signals q) now = none ∧ q.gate.isOpen now
    · simp only [knocks?, if_pos hc, Option.map_eq_none_iff] at hk
      simp only [enter_of_passed hc.1 hc.2, hk]
      exact hw.bucketOf?_resolve hb s.key now
    · unfold enter
      split
      · exact hb
      · next hf =>
        have hg : (q.gate.blockedUntil now).2 ≠ none := by
          intro hb
          exact hc ⟨hf, by simp [Gate.isOpen, hb]⟩
        obtain ⟨until_, hu⟩ := Option.ne_none_iff_exists'.mp hg
        simp only [hu]
        split <;> exact hb
  have habort (e : ClientError) : (abort q id s e now).1.registry.bucketOf? n = some b := by
    unfold abort
    split
    · next lane _ =>
      exact (q.registry.bucketOf?_modifyLane_of_keeps lane n (·.leave id) fun _ => rfl).trans hb
    · next lane _ _ =>
      exact (q.registry.bucketOf?_modifyLane_of_keeps lane n (·.leave id) fun _ => rfl).trans hb
    · next hp => simp [isSending, hp] at hs
    · exact hb
  unfold question? at h
  unfold step
  split
  · split <;> exact hb
  · next hp => exact henter (by simpa only [hp] using h)
  · next hp => exact henter (by simpa only [hp] using h)
  · next hp =>
    simp only [hp, asksAt?, Option.map_eq_none_iff] at h
    simpa [ask, h] using hb
  · next hp =>
    simp only [hp, asksAt?, Option.map_eq_none_iff] at h
    simpa [ask, h] using hb
  · next hp => simp [isSending, hp] at hs
  · exact habort .timeout
  · split_ifs
    · exact habort .canceled
    · exact hb
  · split
    · split_ifs
      · exact habort _
      · exact hb
    · exact hb
  · exact hb

/-- The slot of a request that gets no response goes back to the bucket that granted it. -/
theorem bucketOf?_of_failed (hb : q.registry.bucketOf? n = some b) (hp : s.phase = .sending number)
    (ha : s.allows q id now wake = true) (hr : ∀ r, wake ≠ .answered (.ok r)) :
    (step q id s now wake).1.registry.bucketOf? n = some (if number = n then b.refund else b) := by
  rw [registry_of_failed hp ha hr, Registry.bucketOf?_refund,
    q.registry.bucketOf?_modifyLane_of_keeps number n (·.land id) fun _ => rfl, hb]
  split_ifs <;> rfl

end Submission

namespace Traffic

structure Wakes (x : Traffic) (e : Event) (id : Nat) (wake : Wake) (s : Submission) : Prop where
  act : e.act = .wake id wake
  there : x.submissions id = some s
  allowed : s.allows x.queue id e.time wake = true

def Asks (x : Traffic) (e : Event) (n : Nat) : Prop :=
  ∃ id wake s a, x.Wakes e id wake s ∧ s.question? x.queue id e.time wake = some a ∧ a.lane = n ∧
    Submission.Tries x.queue s e.time a

def Grants (x : Traffic) (e : Event) (n : Nat) : Prop := ∃ s, x.Admits e s n

/-- A slot of the lane comes back: its request has not been sent, or was sent and gets no
response. -/
inductive Returns (x : Traffic) (e : Event) (n : Nat) : Prop
  | unused (hg : x.Grants e n) (hl : ¬ x.Launches e)
  | failed {id : Nat} {wake : Wake} {s : Submission} (hw : x.Wakes e id wake s)
      (hp : s.phase = .sending n) (hr : ∀ r, wake ≠ .answered (.ok r))

def bucketOf? (x : Traffic) (n : Nat) : Option Bucket := x.queue.registry.bucketOf? n

variable {x : Traffic} {e : Event} {id n : Nat} {wake : Wake} {s : Submission} {a : Question}
  {b : Bucket}

theorem Wakes.next (h : x.Wakes e id wake s) :
    x.next e = x.put id (s.step x.queue id e.time wake) := by
  simp only [Traffic.next, h.act, h.there, h.allowed, if_true]

theorem Wakes.unique {id' : Nat} {wake' : Wake} {s' : Submission} (h : x.Wakes e id wake s)
    (h' : x.Wakes e id' wake' s') : id = id' ∧ wake = wake' ∧ s = s' := by
  have ha := h.act.symm.trans h'.act
  simp only [Act.wake.injEq] at ha
  obtain ⟨rfl, rfl⟩ := ha
  exact ⟨rfl, rfl, Option.some.inj (h.there.symm.trans h'.there)⟩

theorem grants_iff : x.Grants e n ↔ ∃ id wake s a, x.Wakes e id wake s ∧
    s.question? x.queue id e.time wake = some a ∧ a.lane = n ∧ a.answer.2 = .granted := by
  constructor
  · rintro ⟨s, id, wake, a, hact, hs, hw, hq, hn, hg⟩
    exact ⟨id, wake, s, a, ⟨hact, hs, hw⟩, hq, hn, hg⟩
  · rintro ⟨id, wake, s, a, hw, hq, hn, hg⟩
    exact ⟨s, id, wake, a, hw.act, hw.there, hw.allowed, hq, hn, hg⟩

theorem Wakes.asks_iff (h : x.Wakes e id wake s) :
    x.Asks e n ↔ ∃ a, s.question? x.queue id e.time wake = some a ∧ a.lane = n ∧
      Submission.Tries x.queue s e.time a := by
  constructor
  · rintro ⟨id', wake', s', a, h', ha⟩
    obtain ⟨rfl, rfl, rfl⟩ := h.unique h'
    exact ⟨a, ha⟩
  · rintro ⟨a, ha⟩
    exact ⟨id, wake, s, a, h, ha⟩

theorem Wakes.grants_iff (h : x.Wakes e id wake s) :
    x.Grants e n ↔ ∃ a, s.question? x.queue id e.time wake = some a ∧ a.lane = n ∧
      a.answer.2 = .granted := by
  rw [Traffic.grants_iff]
  constructor
  · rintro ⟨id', wake', s', a, h', ha⟩
    obtain ⟨rfl, rfl, rfl⟩ := h.unique h'
    exact ⟨a, ha⟩
  · rintro ⟨a, ha⟩
    exact ⟨id, wake, s, a, h, ha⟩

theorem Wakes.launches_iff (h : x.Wakes e id wake s) :
    x.Launches e ↔ (s.step x.queue id e.time wake).2.isSending = true := by
  constructor
  · rintro ⟨id', wake', s', hact, hs, hw, hl⟩
    obtain ⟨rfl, rfl, rfl⟩ := h.unique ⟨hact, hs, hw⟩
    exact hl
  · intro hl
    exact ⟨id, wake, s, h.act, h.there, h.allowed, hl⟩

theorem Wakes.of_asks (h : x.Asks e n) : ∃ id wake s, x.Wakes e id wake s := by
  obtain ⟨id, wake, s, -, hw, -⟩ := h
  exact ⟨id, wake, s, hw⟩

theorem Wakes.of_grants (h : x.Grants e n) : ∃ id wake s, x.Wakes e id wake s := by
  obtain ⟨id, wake, s, -, hw, -⟩ := Traffic.grants_iff.mp h
  exact ⟨id, wake, s, hw⟩

theorem Wakes.of_returns (h : x.Returns e n) : ∃ id wake s, x.Wakes e id wake s := by
  rcases h with ⟨hg, -⟩ | ⟨hw, -, -⟩
  · exact Wakes.of_grants hg
  · exact ⟨_, _, _, hw⟩

theorem question?_of_sending {q : Queue} {now : Instant} {lane : Nat} (hp : s.phase = .sending lane) :
    s.question? q id now wake = none := by
  simp [Submission.question?, hp]

theorem Wakes.not_grants (h : x.Wakes e id wake s) {lane : Nat} (hp : s.phase = .sending lane) :
    ¬ x.Grants e n := by
  simp [h.grants_iff, question?_of_sending hp]

/-- A request that was sent gives its slot back if it gets no response. -/
theorem Wakes.returns_iff_of_sending (h : x.Wakes e id wake s) {lane : Nat}
    (hp : s.phase = .sending lane) :
    x.Returns e n ↔ lane = n ∧ ∀ r, wake ≠ .answered (.ok r) := by
  constructor
  · rintro (⟨hg, -⟩ | ⟨h', hp', hr⟩)
    · exact absurd hg (h.not_grants hp)
    · obtain ⟨-, rfl, rfl⟩ := h.unique h'
      exact ⟨Phase.sending.inj (hp.symm.trans hp'), hr⟩
  · rintro ⟨rfl, hr⟩
    exact .failed h hp hr

/-- Any other request gives a slot back if it gets one and is not sent with it. -/
theorem Wakes.returns_iff_of_not_sending (h : x.Wakes e id wake s) (hs : s.isSending = false) :
    x.Returns e n ↔ x.Grants e n ∧ ¬ x.Launches e := by
  constructor
  · rintro (⟨hg, hl⟩ | ⟨h', hp, -⟩)
    · exact ⟨hg, hl⟩
    · obtain ⟨-, -, rfl⟩ := h.unique h'
      simp [Submission.isSending, hp] at hs
  · rintro ⟨hg, hl⟩
    exact .unused hg hl

/-- The slots that a lane grants are those of its bucket. -/
theorem grants_iff_asks (hx : x.Sound) (hb : x.bucketOf? n = some b) :
    x.Grants e n ↔ x.Asks e n ∧ b.grants e.time := by
  rw [Traffic.grants_iff]
  constructor
  · rintro ⟨id, wake, s, a, hw, hq, hn, hg⟩
    obtain ⟨ht, hb⟩ := (Submission.granted_iff hx.wellFormed hb hq hn).mp hg
    exact ⟨⟨id, wake, s, a, hw, hq, hn, ht⟩, hb⟩
  · rintro ⟨⟨id, wake, s, a, hw, hq, hn, ht⟩, hg⟩
    exact ⟨id, wake, s, a, hw, hq, hn,
      (Submission.granted_iff hx.wellFormed hb hq hn).mpr ⟨ht, hg⟩⟩

/-- Without a request that goes on, the buckets stay as they are. -/
theorem bucketOf?_of_no_wake (hx : x.Sound) (hb : x.bucketOf? n = some b)
    (h : ¬ ∃ id wake s, x.Wakes e id wake s) : (x.next e).bucketOf? n = some b := by
  obtain ⟨now, act⟩ := e
  unfold next
  cases act with
  | submit id request =>
    dsimp only
    split <;> exact hb
  | wake id wake =>
    dsimp only
    split
    · next s hs =>
      split_ifs with ha
      · exact absurd ⟨id, wake, s, rfl, hs, ha⟩ h
      · exact hb
    · exact hb
  | cancel id =>
    dsimp only
    split <;> exact hb
  | abandon id =>
    have hkeeps (lane : Nat) (f : Lane → Lane) (hf : ∀ l, (f l).bucket = l.bucket) :
        (x.queue.registry.modifyLane lane f).bucketOf? n = some b :=
      (Registry.bucketOf?_modifyLane_of_keeps _ lane n f hf).trans hb
    dsimp only
    split
    · next s _ =>
      simp only [bucketOf?, queue_put, Submission.abandon]
      split
      · exact hkeeps _ _ fun _ => rfl
      · exact hkeeps _ _ fun _ => rfl
      · exact hkeeps _ _ fun _ => rfl
      · exact hb
    · exact hb
  | close reason => exact hb
  | trip until_ => exact hb
  | look => exact hb
  | find key => exact hx.wellFormed.bucketOf?_resolve hb key now
  | cleanup idle => exact hb

open Classical in
noncomputable def asked (x : Traffic) (e : Event) (n : Nat) (b : Bucket) : Bucket :=
  if x.Asks e n then (b.tryAdmit e.time).1 else b

open Classical in
/-- An event that brings no response gives back at most one slot to a bucket. -/
theorem bucketOf?_next (hx : x.Sound) (hb : x.bucketOf? n = some b) (ha : x.answer? e = none) :
    (x.next e).bucketOf? n =
      some (if x.Returns e n then (x.asked e n b).refund else x.asked e n b) := by
  by_cases hw : ∃ id wake s, x.Wakes e id wake s
  · obtain ⟨id, wake, s, hw⟩ := hw
    rw [hw.next]
    cases hs : s.isSending with
    | true =>
      obtain ⟨lane, hp⟩ := Submission.exists_lane_of_isSending hs
      have hr : ∀ r, wake ≠ .answered (.ok r) := by
        rintro r rfl
        rw [answer?_of_sending hw.act hw.there hp] at ha
        simp at ha
      have hasks : ¬ x.Asks e n := by simp [hw.asks_iff, question?_of_sending hp]
      simp only [asked, if_neg hasks, hw.returns_iff_of_sending hp, and_iff_left hr]
      exact Submission.bucketOf?_of_failed hb hp hw.allowed hr
    | false =>
      cases hq : s.question? x.queue id e.time wake with
      | none =>
        have hasks : ¬ x.Asks e n := by simp [hw.asks_iff, hq]
        have hgrants : ¬ x.Grants e n := by simp [hw.grants_iff, hq]
        simp only [asked, if_neg hasks, hw.returns_iff_of_not_sending hs, hgrants, false_and,
          if_false]
        exact Submission.bucketOf?_of_silent hx.wellFormed hb hq hs
      | some a =>
        have hstep := Submission.bucketOf?_of_question hx.wellFormed hb hq
        simp only [asked, hw.returns_iff_of_not_sending hs, hw.asks_iff, hw.grants_iff,
          hw.launches_iff, hq, Option.some.injEq, exists_eq_left', Bool.not_eq_true, and_assoc]
        exact hstep
  · have hasks : ¬ x.Asks e n := fun h => hw (Wakes.of_asks h)
    have hreturns : ¬ x.Returns e n := fun h => hw (Wakes.of_returns h)
    simp only [asked, if_neg hasks, if_neg hreturns]
    exact bucketOf?_of_no_wake hx hb hw

end Traffic

end Parley.Rest
