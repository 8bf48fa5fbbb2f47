import Parley.Proofs.Rest.Dealings
import Parley.Proofs.Rest.Windows

/-! An empty bucket always knows when it refills. Until then everybody who asks is told that instant,
and from then on the first one who asks gets a slot; so a request that sleeps until then does not
sleep again, if nobody else has dealt with the bucket. -/
namespace Parley.Rest

namespace Bucket

structure Exhausted (b : Bucket) (until_ : Instant) : Prop where
  limited : b.unlimited = false
  empty : b.remaining = 0
  resets : b.resetAt = some until_

def AsksBefore (until_ : Instant) (events : List Event) : Prop :=
  ∀ e ∈ events, e.act = .ask ∧ e.time < until_

variable {b : Bucket} {now until_ : Instant}

theorem isOpen_refill (b : Bucket) (now : Instant) : (b.refill now).IsOpen now := by
  by_cases ho : b.IsOpen now
  · rwa [refill_of_open ho]
  · rw [refill_of_not_open ho]
    intro t ht
    simp at ht

theorem limit_tryAdmit (b : Bucket) (now : Instant) : (b.tryAdmit now).1.limit = b.limit := by
  cases hu : b.unlimited with
  | true => simp [tryAdmit, hu]
  | false => exact (tryAdmit_limited hu now).2.1

/-- A request that is turned away leaves behind a bucket that refills, and not in the past. -/
theorem exhausted_of_waitUntil (h : (b.tryAdmit now).2 = .waitUntil until_) :
    (b.tryAdmit now).1.Exhausted until_ ∧ now ≤ until_ := by
  have hu : b.unlimited = false := by
    cases hb : b.unlimited with
    | false => rfl
    | true => simp [tryAdmit, hb] at h
  have hur := (unlimited_refill { b with lastAttempt := now } now).trans hu
  have hopen := isOpen_refill { b with lastAttempt := now } now
  have hl : ({ b with lastAttempt := now } : Bucket).unlimited ≠ true := by simp [hu]
  unfold tryAdmit at h ⊢
  dsimp only at h hl ⊢
  rw [if_neg hl] at h ⊢
  generalize ({ b with lastAttempt := now } : Bucket).refill now = r at h hur hopen ⊢
  split at h
  · simp at h
  · next hempty =>
    rw [if_neg hempty]
    obtain rfl := Admission.waitUntil.inj h
    refine ⟨⟨hur, Nat.eq_zero_of_not_pos hempty, rfl⟩, ?_⟩
    cases hr : r.resetAt with
    | none => exact Nat.le_add_right now.nanos _
    | some t => exact Nat.le_of_lt (hopen t hr)

theorem Exhausted.tryAdmit (h : b.Exhausted until_) (hn : now < until_) :
    b.tryAdmit now = ({ b with lastAttempt := now }, .waitUntil until_) := by
  obtain ⟨hu, he, hr⟩ := h
  simp [Bucket.tryAdmit, refill, hu, hr, he, Instant.not_le_of_lt hn]

theorem Exhausted.grants (h : b.Exhausted until_) (hl : 1 ≤ b.limit) (hn : until_ ≤ now) :
    b.grants now := by
  have hclosed : ¬ b.IsOpen now := fun ho => Instant.not_le_of_lt (ho until_ h.resets) hn
  have ha : b.available now = b.limit := if_neg hclosed
  exact (tryAdmit_limited h.limited now).2.2.2.mpr (ha ▸ hl)

theorem Exhausted.run (h : b.Exhausted until_) {events : List Event}
    (he : AsksBefore until_ events) :
    (b.run events).Exhausted until_ ∧ (b.run events).limit = b.limit := by
  induction events generalizing b with
  | nil => exact ⟨h, rfl⟩
  | cons e events ih =>
    obtain ⟨hact, ht⟩ := he e List.mem_cons_self
    have hnext : b.next e = { b with lastAttempt := e.time } := by
      simp only [next, hact, h.tryAdmit ht]
    rw [run_cons, hnext]
    exact ih ⟨h.limited, h.empty, h.resets⟩ fun d hd => he d (List.mem_cons_of_mem e hd)

end Bucket

namespace Submission

variable {q : Queue} {id n : Nat} {s : Submission} {now until_ : Instant} {wake : Wake}

/-- A request that sleeps can be woken at the end of its sleep, or to give up. -/
theorem wake_of_asleep (hp : s.phase = .asleep n until_) (ha : s.allows q id now wake = true) :
    wake = .timer ∧ until_ ≤ now ∨
      ∃ e, s.terms.failure? (s.signals q) now ≠ none ∧
        step q id s now wake = abort q id s e now := by
  have hw : s.isWaiting = true := by simp [isWaiting, hp]
  cases wake with
  | timer => exact Or.inl ⟨rfl, by simpa [allows, hp] using ha⟩
  | canceled =>
    simp only [allows, Bool.and_eq_true] at ha
    refine Or.inr ⟨.canceled, ?_, step_canceled hw⟩
    simp [Terms.failure?_eq_none, signals, ha.2]
  | closed =>
    simp only [allows, Bool.and_eq_true, Queue.isClosed, Option.isSome_iff_exists] at ha
    obtain ⟨-, reason, hc⟩ := ha
    refine Or.inr ⟨reason.duplicate, ?_, step_closed hc hw⟩
    simp [Terms.failure?_eq_none, signals, Queue.failure?, hc]
  | _ => simp [allows, hp] at ha

theorem asksAt?_of_bucket {b : Bucket} (hb : q.registry.bucketOf? n = some b) (id : Nat)
    (s : Submission) (now : Instant) :
    ∃ lane : Lane, lane.bucket = b ∧
      asksAt? q id s now n = some ⟨q, n, lane.ask id s.terms (s.signals q) now⟩ := by
  obtain ⟨lane, hl, hlane⟩ := Registry.bucketOf?_eq_some.mp hb
  exact ⟨lane, hlane, by rw [asksAt?, hl, Option.map_some]⟩

/-- At the end of its sleep a request that need not give up gets a slot. -/
theorem granted_after_sleep {b : Bucket} (hp : s.phase = .asleep n until_)
    (hb : q.registry.bucketOf? n = some b) (hx : b.Exhausted until_) (hl : 1 ≤ b.limit)
    (ha : s.allows q id now wake = true) (hf : s.terms.failure? (s.signals q) now = none) :
    until_ ≤ now ∧
      ∃ a, question? q id s now wake = some a ∧ a.lane = n ∧ a.answer.2 = .granted := by
  obtain ⟨rfl, hle⟩ | ⟨_, hno, -⟩ := wake_of_asleep hp ha
  · obtain ⟨lane, rfl, hq⟩ := asksAt?_of_bucket hb id s now
    refine ⟨hle, _, by simpa only [question?, hp] using hq, rfl, ?_⟩
    exact (lane.tried_ask id hf).granted_iff.mpr (hx.grants hl hle)
  · exact absurd hf hno

theorem over_after_sleep {b : Bucket} (hp : s.phase = .asleep n until_)
    (hb : q.registry.bucketOf? n = some b) (ha : s.allows q id now wake = true)
    (hf : s.terms.failure? (s.signals q) now ≠ none) :
    ∃ e, (step q id s now wake).2.phase = .done (.error e) := by
  obtain ⟨rfl, -⟩ | ⟨e, -, hs⟩ := wake_of_asleep hp ha
  · obtain ⟨e, he⟩ := Option.ne_none_iff_exists'.mp hf
    obtain ⟨lane, -, hq⟩ := asksAt?_of_bucket hb id s now
    have hstep : step q id s now .timer = ask q id s n now := by simp only [step, hp]
    rw [Lane.ask_of_failure he] at hq
    rw [hstep, ask_of_asksAt hq]
    exact ⟨e, rfl⟩
  · exact ⟨e, by simp [hs, abort, hp, finish]⟩

/-- A request with a slot is sent or begins a new round. -/
theorem phase_of_granted {a : Question} (hq : question? q id s now wake = some a)
    (hg : a.answer.2 = .granted) (m : Nat) (t : Instant) :
    (step q id s now wake).2.phase ≠ .asleep m t := by
  rw [step_of_question hq]
  generalize a.answer = answer at hg ⊢
  obtain ⟨lane, place⟩ := answer
  obtain rfl : place = .granted := hg
  rcases launch_cases { a.queue with registry := a.queue.registry.setLane a.lane lane } id s a.lane
    now with ⟨hp, -⟩ | ⟨hp, -⟩
  · simp [settle, hp]
  · simp [settle, hp]

end Submission

namespace Traffic

variable {x : Traffic} {e : Event} {id n : Nat} {wake : Wake} {s : Submission} {b : Bucket}
  {until_ : Instant}

/-- The request asks the bucket `b` of the lane, which has no slot left, and may wait for one. -/
def FallsAsleep (x : Traffic) (e : Event) (id n : Nat) (b : Bucket) (until_ : Instant) : Prop :=
  ∃ wake s a, x.Wakes e id wake s ∧ s.question? x.queue id e.time wake = some a ∧ a.lane = n ∧
    a.queue.registry.bucketOf? n = some b ∧ a.answer.2 = .asleep until_

theorem FallsAsleep.tried (h : x.FallsAsleep e id n b until_) :
    ∃ wake s a, x.Wakes e id wake s ∧ s.question? x.queue id e.time wake = some a ∧ a.lane = n ∧
      Lane.Tried b e.time a.answer ∧ a.answer.2 = .asleep until_ := by
  obtain ⟨wake, s, a, hw, hq, rfl, hb, hp⟩ := h
  refine ⟨wake, s, a, hw, hq, rfl, ?_, hp⟩
  rcases Submission.question_answers hq hb with ⟨-, ht⟩ | ⟨-, -, hi | ⟨_, hr⟩⟩
  · exact ht
  · simp [hi] at hp
  · simp [hr] at hp

theorem FallsAsleep.waitUntil (h : x.FallsAsleep e id n b until_) :
    (b.tryAdmit e.time).2 = .waitUntil until_ := by
  obtain ⟨wake, s, a, -, -, -, ht, hp⟩ := h.tried
  exact ht.waitUntil hp

theorem FallsAsleep.bucketOf? (h : x.FallsAsleep e id n b until_) :
    (x.next e).bucketOf? n = some (b.tryAdmit e.time).1 := by
  obtain ⟨wake, s, a, hw, hq, rfl, ht, hp⟩ := h.tried
  have hbucket := ht.bucket
  rw [hw.next, Traffic.bucketOf?, queue_put, Submission.step_of_question hq]
  generalize a.answer = answer at hp hbucket ⊢
  obtain ⟨lane, place⟩ := answer
  obtain rfl : place = .asleep until_ := hp
  simp only [Submission.settle, Registry.bucketOf?_setLane, if_true]
  exact congrArg some hbucket

/-- A bucket with a limit that turns requests away grants again, at the instant that it tells all of
them and no sooner. So a request that sleeps until then, while others at most ask for slots before
that, gets a slot when it wakes, unless it has to give up; it does not sleep again. -/
theorem no_bucket_is_stranded {b : Bucket} (hl : 1 ≤ b.limit) :
    (∀ now until_, (b.tryAdmit now).2 = .waitUntil until_ → now ≤ until_ ∧
      ∀ asks, Bucket.AsksBefore until_ asks →
        let c := (b.tryAdmit now).1.run asks
        (∀ t, t < until_ → (c.tryAdmit t).2 = .waitUntil until_) ∧
          ∀ t, until_ ≤ t → c.grants t) ∧
      ∀ (x : Traffic) (e : Event) (id n : Nat) (until_ : Instant),
        x.FallsAsleep e id n b until_ → ∀ between asks, Bucket.AsksBefore until_ asks →
          let y := (x.next e).run between
          y.bucketOf? n = ((x.next e).bucketOf? n).map (Bucket.run · asks) →
            ∀ d wake s, y.Wakes d id wake s → s.phase = .asleep n until_ →
              (s.terms.failure? (s.signals y.queue) d.time = none →
                until_ ≤ d.time ∧ y.Grants d n) ∧
              ∀ s', (y.next d).submissions id = some s' →
                (s.terms.failure? (s.signals y.queue) d.time ≠ none →
                  ∃ error, s'.phase = .done (.error error)) ∧
                ∀ m t, s'.phase ≠ .asleep m t := by
  have hkept {now until_ : Instant} (h : (b.tryAdmit now).2 = .waitUntil until_)
      {asks : List Bucket.Event} (ha : Bucket.AsksBefore until_ asks) :
      ((b.tryAdmit now).1.run asks).Exhausted until_ ∧
        1 ≤ ((b.tryAdmit now).1.run asks).limit := by
    obtain ⟨hx, hlimit⟩ := (Bucket.exhausted_of_waitUntil h).1.run ha
    exact ⟨hx, by rwa [hlimit, Bucket.limit_tryAdmit]⟩
  constructor
  · intro now until_ h
    refine ⟨(Bucket.exhausted_of_waitUntil h).2, ?_⟩
    intro asks ha
    obtain ⟨hx, hlimit⟩ := hkept h ha
    refine ⟨fun t ht => ?_, fun t ht => hx.grants hlimit ht⟩
    rw [hx.tryAdmit ht]
  · intro x e id n until_ h between asks ha y hy d wake s hw hp
    rw [h.bucketOf?, Option.map_some] at hy
    obtain ⟨hx, hlimit⟩ := hkept h.waitUntil ha
    have hgranted := fun hf => Submission.granted_after_sleep hp hy hx hlimit hw.allowed hf
    refine ⟨fun hf => ?_, ?_⟩
    · obtain ⟨hle, a, hq, hn, hg⟩ := hgranted hf
      exact ⟨hle, hw.grants_iff.mpr ⟨a, hq, hn, hg⟩⟩
    · intro s' hs'
      rw [hw.next, submissions_put, Option.some.injEq] at hs'
      subst hs'
      have hover := fun hf => Submission.over_after_sleep hp hy hw.allowed hf
      refine ⟨hover, fun m t => ?_⟩
      by_cases hf : s.terms.failure? (s.signals y.queue) d.time = none
      · obtain ⟨-, a, hq, -, hg⟩ := hgranted hf
        exact Submission.phase_of_granted hq hg m t
      · obtain ⟨error, he⟩ := hover hf
        simp [he]

/-- Request 0 has taken the only slot, and request 1 is about to ask for one. -/
def secondArrives : List Event :=
  sendOf 0 (plainRequest .get "/users") ++
    [⟨⟨0⟩, .submit 1 (plainRequest .get "/users")⟩, ⟨⟨0⟩, .wake 1 .ready⟩]

/-- It sleeps for the backoff of 750 ms, and then gets a slot. -/
theorem secondArrives_sleeps_once :
    let x := (create (.ofMillis 750)).run secondArrives
    let asking : Event := ⟨⟨0⟩, .wake 1 .ready⟩
    let woken : Event := ⟨.ofMillis 750, .wake 1 .timer⟩
    ∃ b s, x.bucketOf? 0 = some b ∧ 1 ≤ b.limit ∧ x.FallsAsleep asking 1 0 b (.ofMillis 750) ∧
      (x.next asking).Wakes woken 1 .timer s ∧ s.phase = .asleep 0 (.ofMillis 750) ∧
      s.terms.failure? (s.signals (x.next asking).queue) woken.time = none ∧
      (x.next asking).Grants woken 0 ∧
      ∀ t, (b.tryAdmit ⟨0⟩).1.grants t ↔ .ofMillis 750 ≤ t := by
  intro x asking woken
  obtain ⟨b, hb⟩ : ∃ b, x.bucketOf? 0 = some b := ⟨_, rfl⟩
  have hlimit : 1 ≤ b.limit := by
    cases hb
    decide
  have hsleep : x.FallsAsleep asking 1 0 b (.ofMillis 750) := by
    cases hb
    exact ⟨.ready, _, _, ⟨rfl, rfl, rfl⟩, rfl, rfl, rfl, by decide⟩
  obtain ⟨s, hw, hp, hf⟩ : ∃ s, (x.next asking).Wakes woken 1 .timer s ∧
      s.phase = .asleep 0 (.ofMillis 750) ∧
      s.terms.failure? (s.signals (x.next asking).queue) woken.time = none :=
    ⟨_, ⟨rfl, rfl, by decide⟩, by decide, by decide⟩
  obtain ⟨hbucket, hrequest⟩ := no_bucket_is_stranded hlimit
  have hnone : Bucket.AsksBefore (.ofMillis 750) [] := by simp [Bucket.AsksBefore]
  have hgrants := (hrequest x asking 1 0 _ hsleep [] [] hnone (by simp) woken _ s hw hp).1 hf
  obtain ⟨hbefore, hafter⟩ := (hbucket _ _ hsleep.waitUntil).2 [] hnone
  refine ⟨b, s, hb, hlimit, hsleep, hw, hp, hf, hgrants.2, fun t => ⟨fun hg => ?_, hafter t⟩⟩
  apply Instant.le_of_not_lt
  intro hlt
  have hwait : ((b.tryAdmit ⟨0⟩).1.tryAdmit t).2 = .waitUntil (.ofMillis 750) := hbefore t hlt
  exact absurd (hwait.symm.trans hg) (by simp)

end Traffic

end Parley.Rest
