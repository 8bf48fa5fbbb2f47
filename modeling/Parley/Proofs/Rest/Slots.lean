import Mathlib.Data.Set.Card
import Mathlib.Data.Set.Finite.Lattice
import Parley.Proofs.Rest.Dealings
import Parley.Proofs.Rest.Deadlines
import Parley.Proofs.Rest.Windows

/-! Where the slots of a bucket are. A request in flight holds the slot that it was granted, until
the slot comes back, the response is here, or nobody waits for the request any more. While no refill
and no response changes the counts of the bucket, a slot is lost only by coming back to a bucket that
is full. -/
namespace Parley.Rest

/-- What a request that asks for a slot sees of a bucket whose window is open. -/
def Bucket.counts (b : Bucket) : Bool × Nat × Nat := (b.unlimited, b.limit, b.remaining)

namespace Traffic

/-- The requests that were sent over the lane and of which nothing has come yet. -/
def senders (x : Traffic) (n : Nat) : Set Nat :=
  {id | ∃ s, x.submissions id = some s ∧ s.phase = .sending n}

noncomputable def inFlight (x : Traffic) (n : Nat) : Nat := (x.senders n).ncard

def Answers (x : Traffic) (e : Event) (n : Nat) : Prop := ∃ a, x.answer? e = some a ∧ a.lane = n

/-- Nobody waits any more for a request that is in flight. -/
def Drops (x : Traffic) (e : Event) (n : Nat) : Prop :=
  ∃ id, e.act = .abandon id ∧ id ∈ x.senders n

variable {x y : Traffic} {e : Event} {id n : Nat} {wake : Wake} {s : Submission} {b : Bucket}

theorem mem_senders_put (next : Queue × Submission) (other : Nat) :
    other ∈ (x.put id next).senders n ↔
      if other = id then next.2.phase = .sending n else other ∈ x.senders n := by
  by_cases ho : other = id
  · simp [senders, put, ho]
  · simp [senders, put, ho]

theorem mem_senders (h : x.submissions id = some s) : id ∈ x.senders n ↔ s.phase = .sending n := by
  simp [senders, h]

theorem submitted_of_run {backoff : Duration} {events : List Event}
    (hs : ((create backoff).run events).submissions id = some s) :
    ∃ e ∈ events, ∃ request, e.act = .submit id request := by
  obtain ⟨old, ho, -⟩ | ⟨before, e, after, he, -, ha, -⟩ := arrival_of_run hs
  · simp [create] at ho
  · exact ⟨e, by simp [he], _, ha⟩

/-- Requests come in one at a time. -/
theorem finite_senders (backoff : Duration) (events : List Event) (n : Nat) :
    (((create backoff).run events).senders n).Finite := by
  have hone (e : Event) : {id | ∃ request, e.act = .submit id request}.Finite := by
    apply Set.Subsingleton.finite
    rintro id ⟨request, h⟩ other ⟨request', h'⟩
    exact (Act.submit.inj (h.symm.trans h')).1
  refine (Set.Finite.biUnion events.finite_toSet fun e _ => hone e).subset ?_
  rintro id ⟨s, hs, -⟩
  simpa using submitted_of_run hs

/-- Requests in flight are found among those that have come in. -/
theorem inFlight_eq_card {backoff : Duration} {events : List Event} (ids : Finset Nat)
    (h : ∀ e ∈ events, ∀ id request, e.act = .submit id request → id ∈ ids) :
    let x := (create backoff).run events
    x.inFlight n =
      (ids.filter fun id => (x.submissions id).any fun s => s.phase = .sending n).card := by
  intro x
  rw [inFlight, ← Set.ncard_coe_finset]
  congr 1
  ext id
  simp only [senders, Finset.coe_filter, Set.mem_ofPred_eq, Option.any_eq_true, decide_eq_true_eq]
  constructor
  · rintro ⟨s, hs, hp⟩
    obtain ⟨e, he, request, ha⟩ := submitted_of_run hs
    exact ⟨h e he id request ha, s, hs, hp⟩
  · rintro ⟨-, s, hs, hp⟩
    exact ⟨s, hs, hp⟩

theorem inFlight_congr (h : ∀ id, id ∈ y.senders n ↔ id ∈ x.senders n) :
    y.inFlight n = x.inFlight n :=
  congrArg Set.ncard (Set.ext h)

theorem inFlight_taken (hf : (x.senders n).Finite) (hid : id ∉ x.senders n)
    (h : ∀ other, other ∈ y.senders n ↔ other = id ∨ other ∈ x.senders n) :
    y.inFlight n = x.inFlight n + 1 := by
  have hs : y.senders n = insert id (x.senders n) := Set.ext h
  rw [inFlight, hs, Set.ncard_insert_of_notMem hid hf, inFlight]

theorem inFlight_ended (hf : (x.senders n).Finite) (hid : id ∈ x.senders n)
    (h : ∀ other, other ∈ y.senders n ↔ other ∈ x.senders n ∧ other ≠ id) :
    y.inFlight n + 1 = x.inFlight n := by
  have hs : y.senders n = x.senders n \ {id} := Set.ext h
  rw [inFlight, hs, Set.ncard_sdiff_singleton_add_one hid hf, inFlight]

theorem Wakes.mem_senders (hw : x.Wakes e id wake s) (other : Nat) :
    other ∈ (x.next e).senders n ↔
      if other = id then (s.step x.queue id e.time wake).2.phase = .sending n
      else other ∈ x.senders n := by
  rw [hw.next]
  exact mem_senders_put _ other

theorem Wakes.of_answer {a : Answer} (h : x.answer? e = some a) :
    x.Wakes e a.id (.answered (.ok a.response)) a.submission := by
  obtain ⟨hact, hs, hp⟩ := answer?_eq_some h
  exact ⟨hact, hs, by simp [Submission.allows, hp]⟩

theorem Returns.answer?_eq_none (h : x.Returns e n) : x.answer? e = none := by
  cases ha : x.answer? e with
  | none => rfl
  | some a =>
    have hp := (answer?_eq_some ha).2.2
    exact absurd rfl ((((Wakes.of_answer ha).returns_iff_of_sending hp).mp h).2 a.response)

open Classical in
noncomputable def once (p : Prop) : Nat := if p then 1 else 0

theorem once_of {p : Prop} (h : p) : once p = 1 := if_pos h

theorem once_of_not {p : Prop} (h : ¬ p) : once p = 0 := if_neg h

theorem once_congr {p p' : Prop} (h : p ↔ p') : once p = once p' := congrArg once (propext h)

/-- A request that was sent is in flight no more after its next step. -/
theorem inFlight_of_ending (hf : (x.senders n).Finite) (hw : x.Wakes e id wake s) {lane : Nat}
    (hp : s.phase = .sending lane) :
    x.inFlight n + once (x.Grants e n) =
      (x.next e).inFlight n + once (x.Returns e n) + once (x.Answers e n) +
        once (x.Drops e n) := by
  have hdrops : ¬ x.Drops e n := by simp [Drops, hw.act]
  have hno : (s.step x.queue id e.time wake).2.phase ≠ .sending n := by
    intro h
    have hend := Submission.not_sending_after_send hp hw.allowed
    simp [Submission.isSending, h] at hend
  have hanswers : x.Answers e n ↔ lane = n ∧ ∃ r, wake = .answered (.ok r) := by
    constructor
    · rintro ⟨a, ha, rfl⟩
      obtain ⟨-, rfl, rfl⟩ := hw.unique (.of_answer ha)
      exact ⟨Phase.sending.inj (hp.symm.trans (answer?_eq_some ha).2.2), a.response, rfl⟩
    · rintro ⟨rfl, r, rfl⟩
      exact ⟨_, answer?_of_sending hw.act hw.there hp, rfl⟩
  have hreturns := hw.returns_iff_of_sending (n := n) hp
  rw [once_of_not (hw.not_grants hp), once_of_not hdrops]
  by_cases hn : lane = n
  · subst hn
    have hid : id ∈ x.senders lane := (Traffic.mem_senders hw.there).mpr hp
    have hend : (x.next e).inFlight lane + 1 = x.inFlight lane := by
      refine inFlight_ended hf hid fun other => ?_
      rw [hw.mem_senders]
      split_ifs with ho
      · simp [ho, hno]
      · simp [ho]
    by_cases hr : ∃ r, wake = .answered (.ok r)
    · have hnot : ¬ x.Returns e lane := fun h => hr.elim (hreturns.mp h).2
      rw [once_of (hanswers.mpr ⟨rfl, hr⟩), once_of_not hnot]
      omega
    · have hback : x.Returns e lane := hreturns.mpr ⟨rfl, fun r h => hr ⟨r, h⟩⟩
      rw [once_of hback, once_of_not fun h => hr (hanswers.mp h).2]
      omega
  · have hkeep : (x.next e).inFlight n = x.inFlight n := by
      refine inFlight_congr fun other => ?_
      rw [hw.mem_senders]
      split_ifs with ho
      · simp [ho, hno, Traffic.mem_senders hw.there, hp, hn]
      · rfl
    rw [once_of_not fun h => hn (hanswers.mp h).1, once_of_not fun h => hn (hreturns.mp h).1, hkeep]

/-- A slot that is granted goes to a request that is sent with it, or comes back at once. -/
theorem inFlight_of_asking (hf : (x.senders n).Finite) (hw : x.Wakes e id wake s)
    (hs : s.isSending = false) :
    x.inFlight n + once (x.Grants e n) =
      (x.next e).inFlight n + once (x.Returns e n) + once (x.Answers e n) +
        once (x.Drops e n) := by
  have hdrops : ¬ x.Drops e n := by simp [Drops, hw.act]
  have hanswers : ¬ x.Answers e n := by
    rintro ⟨a, ha, -⟩
    obtain ⟨-, -, rfl⟩ := hw.unique (.of_answer ha)
    simp [Submission.isSending, (answer?_eq_some ha).2.2] at hs
  have hreturns := hw.returns_iff_of_not_sending (n := n) hs
  have hnot : id ∉ x.senders n := by
    rw [Traffic.mem_senders hw.there]
    intro hp
    simp [Submission.isSending, hp] at hs
  rw [once_of_not hanswers, once_of_not hdrops]
  by_cases hsent : (s.step x.queue id e.time wake).2.phase = .sending n
  · obtain ⟨a, hq, hn, hg⟩ := Submission.question_of_sending hw.allowed hsent
    have hgrants : x.Grants e n := hw.grants_iff.mpr ⟨a, hq, hn, hg⟩
    have hlaunches : x.Launches e := hw.launches_iff.mpr (by simp [Submission.isSending, hsent])
    have htaken : (x.next e).inFlight n = x.inFlight n + 1 := by
      refine inFlight_taken hf hnot fun other => ?_
      rw [hw.mem_senders]
      split_ifs with ho
      · simp [ho, hsent]
      · simp [ho]
    rw [once_of hgrants, once_of_not fun h => (hreturns.mp h).2 hlaunches, htaken]
  · have hkeep : (x.next e).inFlight n = x.inFlight n := by
      refine inFlight_congr fun other => ?_
      rw [hw.mem_senders]
      split_ifs with ho
      · simp [ho, hsent, hnot]
      · rfl
    -- a request that is sent over another lane has its slot from there
    have hback : x.Returns e n ↔ x.Grants e n := by
      rw [hreturns, and_iff_left_iff_imp]
      intro hg hl
      obtain ⟨lane, hp⟩ := Submission.exists_lane_of_isSending (hw.launches_iff.mp hl)
      obtain ⟨a, hq, rfl, -⟩ := Submission.question_of_sending hw.allowed hp
      obtain ⟨a', hq', rfl, -⟩ := hw.grants_iff.mp hg
      obtain rfl := Option.some.inj (hq.symm.trans hq')
      exact hsent hp
    rw [hkeep, once_congr hback, Nat.add_zero]

theorem mem_senders_of_idle (hw : ¬ ∃ id wake s, x.Wakes e id wake s) (hd : ¬ x.Drops e n)
    (id : Nat) : id ∈ (x.next e).senders n ↔ id ∈ x.senders n := by
  constructor
  · rintro ⟨s, hs, hp⟩
    cases becomes_of_next hs with
    | stays ho => exact ⟨s, ho, hp⟩
    | created => simp [Submission.create] at hp
    | stepped hact ho hallow => exact absurd ⟨_, _, _, hact, ho, hallow⟩ hw
    | canceled _ ho => exact ⟨_, ho, hp⟩
    | @abandoned old =>
      have hover := old.isOver_abandon x.queue id
      simp [Submission.isOver, hp] at hover
  · rintro ⟨s, hs, hp⟩
    obtain ⟨s', hs', hb⟩ := becomes_next hs e
    cases hb with
    | stays ho =>
      obtain rfl := Option.some.inj (ho.symm.trans hs)
      exact ⟨s', hs', hp⟩
    | created _ ho => simp [ho] at hs
    | stepped hact ho hallow => exact absurd ⟨_, _, _, hact, ho, hallow⟩ hw
    | canceled _ ho =>
      obtain rfl := Option.some.inj (ho.symm.trans hs)
      exact ⟨_, hs', hp⟩
    | abandoned hact => exact absurd ⟨id, hact, s, hs, hp⟩ hd

/-- A slot that is granted is held by a request in flight, and each such slot has one of three ends:
it comes back, its response is here, or its request is dropped. -/
theorem inFlight_next (hf : (x.senders n).Finite) (e : Event) :
    x.inFlight n + once (x.Grants e n) =
      (x.next e).inFlight n + once (x.Returns e n) + once (x.Answers e n) +
        once (x.Drops e n) := by
  by_cases hw : ∃ id wake s, x.Wakes e id wake s
  · obtain ⟨id, wake, s, hw⟩ := hw
    cases hs : s.isSending with
    | true =>
      obtain ⟨lane, hp⟩ := Submission.exists_lane_of_isSending hs
      exact inFlight_of_ending hf hw hp
    | false => exact inFlight_of_asking hf hw hs
  · have hgrants : ¬ x.Grants e n := fun h => hw (Wakes.of_grants h)
    have hreturns : ¬ x.Returns e n := fun h => hw (Wakes.of_returns h)
    have hanswers : ¬ x.Answers e n := by
      rintro ⟨a, ha, -⟩
      exact hw ⟨_, _, _, .of_answer ha⟩
    rw [once_of_not hgrants, once_of_not hreturns, once_of_not hanswers]
    by_cases hd : x.Drops e n
    · obtain ⟨id, hact, hid⟩ := hd
      obtain ⟨s, hs, hp⟩ := hid
      have hend : (x.next e).inFlight n + 1 = x.inFlight n := by
        have hid : id ∈ x.senders n := ⟨s, hs, hp⟩
        refine inFlight_ended hf hid fun other => ?_
        have hnext : x.next e = x.put id (s.abandon x.queue id) := by
          simp only [next, hact, hs]
        rw [hnext, mem_senders_put]
        split_ifs with ho
        · simp [ho, Submission.abandon, hp, Submission.isOver]
        · simp [ho]
      rw [once_of ⟨id, hact, ⟨s, hs, hp⟩⟩]
      omega
    · rw [once_of_not hd, inFlight_congr fun other => mem_senders_of_idle hw hd other]

/-- Neither a refill nor a response changes the counts of the bucket. -/
structure Quiet (x : Traffic) (e : Event) (n : Nat) : Prop where
  no_refill : ∀ b, x.bucketOf? n = some b → x.Asks e n → b.IsOpen e.time
  no_booking : ∀ a, x.answer? e = some a →
    ((x.next e).bucketOf? n).map Bucket.counts = (x.bucketOf? n).map Bucket.counts

/-- A slot comes back to a bucket that has no room for it. -/
def Spills (x : Traffic) (e : Event) (n : Nat) : Prop :=
  x.Returns e n ∧ ∃ b, x.bucketOf? n = some b ∧ b.limit ≤ (x.asked e n b).remaining

def left (x : Traffic) (n : Nat) : Nat := ((x.bucketOf? n).map Bucket.remaining).getD 0

def HasLimit (x : Traffic) (n limit : Nat) : Prop :=
  ∃ b, x.bucketOf? n = some b ∧ b.unlimited = false ∧ b.limit = limit

/-- A grant takes a slot out of the bucket, and nothing else that is asked of it does. -/
theorem counts_asked (hx : x.Sound) (hb : x.bucketOf? n = some b) (hu : b.unlimited = false)
    (ho : x.Asks e n → b.IsOpen e.time) :
    (x.asked e n b).unlimited = false ∧ (x.asked e n b).limit = b.limit ∧
      (x.asked e n b).remaining + once (x.Grants e n) = b.remaining := by
  unfold asked
  rw [once_congr (grants_iff_asks hx hb)]
  by_cases ha : x.Asks e n
  · obtain ⟨hu', hl, hr, hg⟩ := Bucket.tryAdmit_limited hu e.time
    have hav : b.available e.time = b.remaining := if_pos (ho ha)
    rw [hav] at hr hg
    rw [if_pos ha]
    refine ⟨hu', hl, ?_⟩
    by_cases hpos : 0 < b.remaining
    · rw [once_of ⟨ha, hg.mpr hpos⟩]
      omega
    · rw [once_of_not fun h => hpos (hg.mp h.2)]
      omega
  · rw [if_neg ha, once_of_not fun h => ha h.1]
    exact ⟨hu, rfl, Nat.add_zero b.remaining⟩

/-- What is left in the bucket and held by requests in flight becomes less by the slots that a
response or a caller's giving up leaves without a holder, and by one that spills. -/
theorem HasLimit.next {limit : Nat} (h : x.HasLimit n limit) (hx : x.Sound)
    (hf : (x.senders n).Finite) (hq : x.Quiet e n) :
    (x.next e).HasLimit n limit ∧
      (x.next e).left n + (x.next e).inFlight n + once (x.Answers e n) + once (x.Drops e n) ≤
        x.left n + x.inFlight n ∧
      ((x.next e).left n + (x.next e).inFlight n + once (x.Answers e n) + once (x.Drops e n) =
        x.left n + x.inFlight n ↔ ¬ x.Spills e n) := by
  obtain ⟨b, hb, hu, rfl⟩ := h
  have hflight := inFlight_next hf e
  have hleft : x.left n = b.remaining := by simp [left, hb]
  cases ha : x.answer? e with
  | some a =>
    have hreturns : ¬ x.Returns e n := fun h => by simp [h.answer?_eq_none] at ha
    have hgrants : ¬ x.Grants e n := (Wakes.of_answer ha).not_grants (answer?_eq_some ha).2.2
    have hsame := hq.no_booking a ha
    rw [hb, Option.map_some, Option.map_eq_some_iff] at hsame
    obtain ⟨c, hc, hcounts⟩ := hsame
    obtain ⟨hcu, hcl, hcr⟩ : c.unlimited = b.unlimited ∧ c.limit = b.limit ∧
        c.remaining = b.remaining := by simpa [Bucket.counts] using hcounts
    have hleft' : (x.next e).left n = b.remaining := by simp [left, hc, hcr]
    have hspills : ¬ x.Spills e n := fun h => hreturns h.1
    rw [once_of_not hgrants, once_of_not hreturns] at hflight
    refine ⟨⟨c, hc, hcu.trans hu, hcl⟩, by omega, ?_⟩
    rw [iff_true_right hspills]
    omega
  | none =>
    obtain ⟨hau, hal, har⟩ := counts_asked hx hb hu (hq.no_refill b hb)
    have hnext := bucketOf?_next hx hb ha
    by_cases hr : x.Returns e n
    · rw [if_pos hr, Bucket.Usage.refund_limited hau] at hnext
      have hleft' : (x.next e).left n = min ((x.asked e n b).remaining + 1) b.limit := by
        simp [left, hnext, hal]
      have hspills : x.Spills e n ↔ b.limit ≤ (x.asked e n b).remaining := by
        simp [Spills, hr, hb]
      rw [once_of hr] at hflight
      refine ⟨⟨_, hnext, hau, hal⟩, by omega, ?_⟩
      rw [hspills]
      omega
    · rw [if_neg hr] at hnext
      have hleft' : (x.next e).left n = (x.asked e n b).remaining := by simp [left, hnext]
      have hspills : ¬ x.Spills e n := fun h => hr h.1
      rw [once_of_not hr] at hflight
      refine ⟨⟨_, hnext, hau, hal⟩, by omega, ?_⟩
      rw [iff_true_right hspills]
      omega

/-- A slot cannot spill if there is room for all. -/
theorem HasLimit.not_spills {limit : Nat} (h : x.HasLimit n limit) (hx : x.Sound)
    (hf : (x.senders n).Finite) (hq : x.Quiet e n) (hroom : x.left n + x.inFlight n ≤ limit) :
    ¬ x.Spills e n := by
  rintro ⟨hr, b', hb', hfull⟩
  obtain ⟨b, hb, hu, rfl⟩ := h
  obtain rfl : b = b' := Option.some.inj (hb.symm.trans hb')
  have hflight := inFlight_next hf e
  obtain ⟨-, -, har⟩ := counts_asked hx hb hu (hq.no_refill b hb)
  have hleft : x.left n = b.remaining := by simp [left, hb]
  rw [once_of hr] at hflight
  omega

noncomputable def tally (kind : Traffic → Event → Prop) : Traffic → List Event → Nat
  | _, [] => 0
  | x, e :: events => once (kind x e) + tally kind (x.next e) events

theorem tally_concat (kind : Traffic → Event → Prop) (x : Traffic) (events : List Event)
    (e : Event) :
    tally kind x (events ++ [e]) = tally kind x events + once (kind (x.run events) e) := by
  induction events generalizing x with
  | nil => simp [tally]
  | cons d events ih => simp only [List.cons_append, tally, ih, run_cons, Nat.add_assoc]

/-- Slots that are left or held by requests in flight, and those that a response or a caller's giving
up has left without a holder. -/
noncomputable def balance (n : Nat) (x : Traffic) (events : List Event) : Nat :=
  (x.run events).left n + (x.run events).inFlight n + tally (Answers · · n) x events +
    tally (Drops · · n) x events

theorem balance_nil (n : Nat) (x : Traffic) : balance n x [] = x.left n + x.inFlight n := rfl

/-- A number stays what it is at the start if no event changes it. -/
theorem constant_iff (f : List Event → Nat) (events : List Event) :
    (∀ before, before <+: events → f before = f []) ↔
      ∀ before e, before ++ [e] <+: events → f (before ++ [e]) = f before := by
  constructor
  · intro h before e hp
    exact (h _ hp).trans (h before ((List.prefix_append before [e]).trans hp)).symm
  · intro h before hp
    induction before using List.reverseRecOn with
    | nil => rfl
    | append_singleton before e ih =>
      exact (h before e hp).trans (ih ((List.prefix_append before [e]).trans hp))

/-- All slots of a run of events have their ends. -/
theorem inFlight_run (hf : ∀ events, ((x.run events).senders n).Finite) (events : List Event) :
    x.inFlight n + tally (Grants · · n) x events =
      (x.run events).inFlight n + tally (Returns · · n) x events +
        tally (Answers · · n) x events + tally (Drops · · n) x events := by
  induction events using List.reverseRecOn with
  | nil => rfl
  | append_singleton events e ih =>
    have hnext := inFlight_next (hf events) e
    simp only [tally_concat, run_concat]
    omega

section Quiet

variable {limit : Nat} {events : List Event}

theorem HasLimit.run (h : x.HasLimit n limit) (hx : x.Sound)
    (hf : ∀ events, ((x.run events).senders n).Finite)
    (hq : ∀ before e, before ++ [e] <+: events → (x.run before).Quiet e n) :
    (x.run events).HasLimit n limit := by
  induction events using List.reverseRecOn with
  | nil => exact h
  | append_singleton events e ih =>
    have hp : events <+: events ++ [e] := List.prefix_append events [e]
    rw [run_concat]
    exact ((ih fun before d hd => hq before d (hd.trans hp)).next (hx.run events) (hf events)
      (hq events e (List.prefix_refl _))).1

/-- The balance changes exactly when a slot spills. -/
theorem HasLimit.balance_concat (h : x.HasLimit n limit) (hx : x.Sound)
    (hf : ∀ events, ((x.run events).senders n).Finite)
    (hq : ∀ before e, before ++ [e] <+: events → (x.run before).Quiet e n)
    {before : List Event} {e : Event} (hp : before ++ [e] <+: events) :
    balance n x (before ++ [e]) ≤ balance n x before ∧
      (balance n x (before ++ [e]) = balance n x before ↔ ¬ (x.run before).Spills e n) := by
  have hlimit : (x.run before).HasLimit n limit :=
    h.run hx hf fun earlier d hd =>
      hq earlier d (hd.trans ((List.prefix_append before [e]).trans hp))
  obtain ⟨-, hle, heq⟩ := hlimit.next (hx.run before) (hf before) (hq before e hp)
  simp only [balance, tally_concat, run_concat]
  rw [← heq]
  constructor
  · omega
  · omega

theorem HasLimit.never_spills (h : x.HasLimit n limit) (hx : x.Sound)
    (hf : ∀ events, ((x.run events).senders n).Finite)
    (hq : ∀ before e, before ++ [e] <+: events → (x.run before).Quiet e n)
    (hroom : x.left n + x.inFlight n ≤ limit) {before : List Event} {e : Event}
    (hp : before ++ [e] <+: events) : ¬ (x.run before).Spills e n := by
  have hin : before <+: events := (List.prefix_append before [e]).trans hp
  have hbalance : balance n x before ≤ limit := by
    clear hp
    induction before using List.reverseRecOn with
    | nil => exact hroom
    | append_singleton before d ih =>
      have hle := (h.balance_concat hx hf hq hin).1
      exact hle.trans (ih ((List.prefix_append before [d]).trans hin))
  have hlimit : (x.run before).HasLimit n limit :=
    h.run hx hf fun earlier d hd => hq earlier d (hd.trans hin)
  refine hlimit.not_spills (hx.run before) (hf before) (hq before e hp) ?_
  unfold balance at hbalance
  omega

end Quiet

/-- In any run of requests over a limited bucket whose counts no refill and no response changes, each
granted slot is held by a request in flight until it comes back to the bucket, its response is here
or its request is dropped, and it comes back once and never after a response. So what is left in the
bucket and the slots that have not come back are always as many as at the start, exactly as long as
no slot comes back to a full bucket; and none does if there is room for all of them at the start. -/
theorem slots_balance_iff_none_spills (backoff : Duration) (history : List Event) {n limit : Nat}
    (hl : ((create backoff).run history).HasLimit n limit) {events : List Event}
    (hq : ∀ before e, before ++ [e] <+: events →
      (((create backoff).run history).run before).Quiet e n) :
    let x := (create backoff).run history
    (∀ before e, before ++ [e] <+: events → ∀ b, (x.run before).bucketOf? n = some b →
      let y := x.run before
      (y.Returns e n → y.answer? e = none ∧
        (y.next e).bucketOf? n = some (y.asked e n b).refund) ∧
      (¬ y.Returns e n → y.answer? e = none → (y.next e).bucketOf? n = some (y.asked e n b))) ∧
    (∀ before, before <+: events → x.inFlight n + tally (Grants · · n) x before =
      (x.run before).inFlight n + tally (Returns · · n) x before +
        tally (Answers · · n) x before + tally (Drops · · n) x before) ∧
    ((∀ before, before <+: events → balance n x before = x.left n + x.inFlight n) ↔
      ∀ before e, before ++ [e] <+: events → ¬ (x.run before).Spills e n) ∧
    (x.left n + x.inFlight n ≤ limit →
      ∀ before e, before ++ [e] <+: events → ¬ (x.run before).Spills e n) := by
  intro x
  have hx : x.Sound := sound_run backoff history
  have hf : ∀ events, ((x.run events).senders n).Finite := by
    intro events
    have h := finite_senders backoff (history ++ events) n
    rwa [run, List.foldl_append] at h
  refine ⟨?_, fun before _ => inFlight_run hf before, ?_, ?_⟩
  · intro before e _ b hb
    have hnext := bucketOf?_next (e := e) (hx.run before) hb
    refine ⟨fun hr => ⟨hr.answer?_eq_none, ?_⟩, fun hr ha => ?_⟩
    · exact (hnext hr.answer?_eq_none).trans (by rw [if_pos hr])
    · exact (hnext ha).trans (by rw [if_neg hr])
  · rw [← balance_nil, constant_iff]
    constructor
    · intro h before e hp
      exact (hl.balance_concat hx hf hq hp).2.mp (h before e hp)
    · intro h before e hp
      exact (hl.balance_concat hx hf hq hp).2.mpr (h before e hp)
  · intro hroom before e hp
    exact hl.never_spills hx hf hq hroom hp

theorem quiet_of_open (hb : x.bucketOf? n = some b) (ho : b.IsOpen e.time)
    (ha : x.answer? e = none) : x.Quiet e n := by
  refine ⟨fun c hc _ => ?_, fun a h => by simp [ha] at h⟩
  obtain rfl := Option.some.inj (hb.symm.trans hc)
  exact ho

def twoASecond : Response :=
  ⟨200, { RateLimit.silent with
    limit := some 2, remaining := some 2, resetAfter := some (.ofSecs 1) }, []⟩

/-- Request 0 has found out that the bucket has two slots a second, and request 1 is sent with one
of them. -/
def oneInFlight : List Event :=
  sendOf 0 (plainRequest .get "/users") ++ [⟨⟨0⟩, .wake 0 (.answered (.ok twoASecond))⟩] ++
    sendOf 1 (plainRequest .get "/users")

def failure (time : Instant) (id : Nat) : Event := ⟨time, .wake id (.answered (.error .timeout))⟩

theorem oneInFlight_balance :
    let x := (create (.ofMillis 750)).run oneInFlight
    x.HasLimit 0 2 ∧
      (∀ before e, before ++ [e] <+: [failure ⟨1⟩ 1] → (x.run before).Quiet e 0) ∧
      x.left 0 + x.inFlight 0 = 2 ∧ balance 0 x [failure ⟨1⟩ 1] = 2 ∧
      (x.run [failure ⟨1⟩ 1]).left 0 = 2 := by
  intro x
  have hl : x.HasLimit 0 2 := ⟨_, rfl, rfl, rfl⟩
  have hq : ∀ before e, before ++ [e] <+: [failure ⟨1⟩ 1] → (x.run before).Quiet e 0 := by
    intro before e hp
    rcases before with _ | ⟨d, rest⟩
    · obtain rfl : e = failure ⟨1⟩ 1 := by simpa using hp
      exact quiet_of_open rfl (by decide) rfl
    · simp at hp
  have htwo : x.left 0 + x.inFlight 0 = 2 := by
    rw [inFlight_eq_card (Finset.range 2) (by simp [oneInFlight, sendOf])]
    rfl
  obtain ⟨-, -, hiff, hroom⟩ := slots_balance_iff_none_spills (.ofMillis 750) oneInFlight hl hq
  have hbalance := hiff.mpr (hroom (Nat.le_of_eq htwo)) [failure ⟨1⟩ 1] (List.prefix_refl _)
  exact ⟨hl, hq, htwo, hbalance.trans htwo, rfl⟩

/-- Request 2 is sent in the next window, while request 1 still holds a slot of the first one. -/
def acrossWindows : List Event :=
  oneInFlight ++ [⟨.ofMillis 1000, .submit 2 (plainRequest .get "/users")⟩,
    ⟨.ofMillis 1000, .wake 2 .ready⟩, ⟨.ofMillis 1000, .wake 2 .ready⟩]

/-- The slots of both come back, but the bucket holds no more than two. -/
theorem acrossWindows_balance_drops :
    let x := (create (.ofMillis 750)).run acrossWindows
    let events := [failure (.ofMillis 1001) 2, failure (.ofMillis 1002) 1]
    x.HasLimit 0 2 ∧
      (∀ before e, before ++ [e] <+: events → (x.run before).Quiet e 0) ∧
      balance 0 x [] = 3 ∧ balance 0 x events = 2 := by
  intro x events
  have hl : x.HasLimit 0 2 := ⟨_, rfl, rfl, rfl⟩
  have hno {y : Traffic} {time : Instant} {id : Nat} : y.answer? (failure time id) = none := rfl
  have hq : ∀ before e, before ++ [e] <+: events → (x.run before).Quiet e 0 := by
    intro before e hp
    rcases before with _ | ⟨d, _ | ⟨d', rest⟩⟩
    · obtain rfl : e = failure (.ofMillis 1001) 2 := by simpa [events] using hp
      exact quiet_of_open rfl (by decide) hno
    · obtain ⟨rfl, rfl⟩ : d = failure (.ofMillis 1001) 2 ∧ e = failure (.ofMillis 1002) 1 := by
        simpa [events] using hp
      exact quiet_of_open rfl (by decide) hno
    · simp [events] at hp
  refine ⟨hl, hq, ?_, ?_⟩
  · rw [balance_nil, inFlight_eq_card (Finset.range 3) (by simp [acrossWindows, oneInFlight, sendOf])]
    rfl
  · have ha {y : Traffic} {time : Instant} {id : Nat} : ¬ y.Answers (failure time id) 0 := by
      simp [Answers, hno]
    have hd {y : Traffic} {time : Instant} {id : Nat} : ¬ y.Drops (failure time id) 0 := by
      simp [Drops, failure]
    have hflight : (x.run events).inFlight 0 = 0 := by
      have hx : x.run events = (create (.ofMillis 750)).run (acrossWindows ++ events) := by
        simp [x, run]
      rw [hx, inFlight_eq_card (Finset.range 3)
        (by simp [acrossWindows, oneInFlight, sendOf, events, failure])]
      rfl
    simp only [balance, hflight, tally, events, once_of_not ha, once_of_not hd]
    rfl

end Traffic

end Parley.Rest
