import Parley.Proofs.Gateway.Deliveries

/-! A dispatch queue between the session that pushes and the handler that is called, in every mode: one
call for each push, in order, and never two at once. Closing waits for all of them. -/
namespace Parley.Gateway

inductive Mark where
  | pushed (d : Delivery)
  | called (d : Delivery)
  | returned (d : Delivery) (failed : Bool)

namespace Mark

def pushed? : Mark → Option Delivery
  | .pushed d => some d
  | _ => none

def called? : Mark → Option Delivery
  | .called d => some d
  | _ => none

/-- The call that has not returned, by a log with the latest mark first. -/
def underWay : List Mark → Option Delivery
  | [] => none
  | .pushed _ :: log => underWay log
  | .called d :: _ => some d
  | .returned _ _ :: _ => none

/-- A call begins when none is under way, and the one that returns is the one under way. -/
def Serial : List Mark → Prop
  | [] => True
  | .pushed _ :: log => Serial log
  | .called _ :: log => underWay log = none ∧ Serial log
  | .returned d _ :: log => underWay log = some d ∧ Serial log

end Mark

/-- A dispatch queue with the session before it and the worker behind it. -/
structure Relay where
  queue : DispatchQueue
  isClosing : Bool
  log : List Mark

namespace Relay

inductive Act where
  | push (d : Delivery)
  | take
  | finish (failed : Bool)
  | close

def create (mode : DispatchMode) : Relay := ⟨.create mode, false, []⟩

def next (x : Relay) : Act → Relay
  | .push d =>
    if x.isClosing || x.queue.isPushing then x
    else { x with queue := x.queue.push d, log := .pushed d :: x.log }
  | .take =>
    match x.queue.take? with
    | some (d, queue) => { x with queue, log := .called d :: x.log }
    | none => x
  | .finish failed =>
    match x.queue.call with
    | some d => { x with queue := x.queue.finish, log := .returned d failed :: x.log }
    | none => x
  | .close => if x.queue.isPushing then x else { x with isClosing := true }

def run (x : Relay) (acts : List Act) : Relay := acts.foldl next x

@[simp] theorem run_nil (x : Relay) : x.run [] = x := rfl

@[simp] theorem run_cons (x : Relay) (act : Act) (acts : List Act) :
    x.run (act :: acts) = (x.next act).run acts := rfl

def pushes (x : Relay) : List Delivery := (x.log.filterMap Mark.pushed?).reverse

def calls (x : Relay) : List Delivery := (x.log.filterMap Mark.called?).reverse

/-- Closing is over: in the queued modes the worker has ended. -/
def isClosed (x : Relay) : Bool := x.isClosing && x.queue.isDrained

end Relay

theorem DispatchMode.ofConfig_ne_bounded_zero (kind : DispatchKind) (capacity : Nat) :
    ofConfig kind capacity ≠ .bounded 0 := by
  unfold ofConfig
  split
  · simp
  · split_ifs with hz
    · simp
    · simpa using hz

namespace DispatchQueue

variable {q q' : DispatchQueue} {d : Delivery}

@[simp] theorem mode_push (q : DispatchQueue) (d : Delivery) : (q.push d).mode = q.mode := by
  unfold push
  dsimp only
  split_ifs <;> rfl

@[simp] theorem call_push (q : DispatchQueue) (d : Delivery) : (q.push d).call = q.call := by
  unfold push
  dsimp only
  split_ifs <;> rfl

theorem pending_push (hm : q.mode ≠ .inline) (d : Delivery) :
    (q.push d).pending = q.pending + 1 := by
  simp only [push, if_neg hm]
  split_ifs <;> rfl

theorem offered_of_not_pushing (h : q.isPushing = false) : q.offered = none := by
  simp only [isPushing, Bool.or_eq_false_iff] at h
  simpa using h.1

def load (q : DispatchQueue) : Nat := q.waiting.length + q.offered.toList.length

/-- The counter tells the load, and a delivery waits on offer only before a full queue. -/
structure Balanced (q : DispatchQueue) : Prop where
  pending : q.pending = if q.mode = .inline then 0 else q.load
  full : ∀ d ∈ q.offered, q.mode = .inline ∨
    ∃ capacity, q.mode = .bounded capacity ∧ q.waiting.length = capacity
  within : ∀ capacity, q.mode = .bounded capacity → q.waiting.length ≤ capacity

theorem balanced_create (mode : DispatchMode) : (create mode).Balanced := by
  refine ⟨?_, ?_, ?_⟩
  · cases mode <;> rfl
  · intro d hd
    simp [create] at hd
  · intro capacity _
    exact Nat.zero_le capacity

namespace Balanced

theorem push (h : q.Balanced) (ho : q.offered = none) (d : Delivery) : (q.push d).Balanced := by
  obtain ⟨hpending, -, hwithin⟩ := h
  cases hm : q.mode with
  | inline =>
    have hq : q.push d = { q with offered := some d } := by simp [DispatchQueue.push, hm, hasRoom]
    rw [hq]
    refine ⟨by simpa [hm] using hpending, fun _ _ => Or.inl hm, ?_⟩
    intro capacity hc
    simp [hm] at hc
  | unbounded =>
    have hq : q.push d = { q with pending := q.pending + 1, waiting := q.waiting ++ [d] } := by
      simp [DispatchQueue.push, hm, hasRoom]
    rw [hq]
    refine ⟨by simp [hpending, hm, load, ho], ?_, ?_⟩
    · intro d hd
      simp [ho] at hd
    · intro capacity hc
      simp [hm] at hc
  | bounded capacity =>
    have hle := hwithin capacity hm
    by_cases hroom : q.waiting.length < capacity
    · have hq : q.push d = { q with pending := q.pending + 1, waiting := q.waiting ++ [d] } := by
        simp [DispatchQueue.push, hm, hasRoom, hroom]
      rw [hq]
      refine ⟨by simp [hpending, hm, load, ho], ?_, ?_⟩
      · intro d hd
        simp [ho] at hd
      · intro other hc
        simp only [hm, DispatchMode.bounded.injEq] at hc
        simp only [List.length_append, List.length_singleton]
        omega
    · have hq : q.push d = { q with pending := q.pending + 1, offered := some d } := by
        simp [DispatchQueue.push, hm, hasRoom, hroom]
      rw [hq]
      refine ⟨by simp [hpending, hm, load, ho], ?_, hwithin⟩
      intro _ _
      exact Or.inr ⟨capacity, hm, Nat.le_antisymm hle (Nat.le_of_not_lt hroom)⟩

/-- A worker that takes a delivery counts it off, and never below zero. -/
theorem take (h : q.Balanced) (ht : q.take? = some (d, q')) :
    q'.Balanced ∧ q'.mode = q.mode ∧ q.call = none ∧ q'.call = some d ∧ q'.offered = none ∧
      (q.mode = .inline ∨ q.pending = q'.pending + 1) := by
  obtain ⟨hpending, hfull, hwithin⟩ := h
  unfold take? at ht
  split_ifs at ht with hcall hm
  · obtain ⟨d, ho, ht⟩ := Option.map_eq_some_iff.mp ht
    obtain ⟨rfl, rfl⟩ := Prod.mk.inj ht
    refine ⟨⟨by simpa [hm] using hpending, fun _ _ => Or.inl hm, hwithin⟩, rfl, by simpa using hcall,
      rfl, rfl, Or.inl hm⟩
  · split at ht
    · next d rest hw =>
      obtain ⟨rfl, rfl⟩ := Prod.mk.inj (Option.some.inj ht)
      have hload : q.pending = (rest ++ q.offered.toList).length + 1 := by
        simp [hpending, hm, load, hw]
        omega
      refine ⟨⟨?_, ?_, ?_⟩, rfl, by simpa using hcall, rfl, rfl, Or.inr ?_⟩
      · simp only [if_neg hm, load, hload]
        simp
      · intro d hd
        simp at hd
      · intro capacity hc
        have hle := hwithin capacity hc
        cases ho : q.offered with
        | none =>
          simp only [hw, List.length_cons] at hle
          simp only [Option.toList_none, List.append_nil]
          omega
        | some other =>
          obtain hi | ⟨full, hc', hlen⟩ := hfull other ho
          · exact absurd hi hm
          · obtain rfl : full = capacity := DispatchMode.bounded.inj (hc'.symm.trans hc)
            simp only [hw, List.length_cons] at hlen
            simp [hlen]
      · simp only [hload]
        omega
    · cases ht

end Balanced

/-- Unless the queue is drained, a call of the handler is under way or due. -/
theorem Balanced.progress (h : q.Balanced) (hm : q.mode ≠ .bounded 0)
    (hinline : q.mode = .inline → q.waiting = []) (hd : q.isDrained = false) :
    q.call.isSome ∨ q.take?.isSome := by
  cases hcall : q.call with
  | some d => exact Or.inl rfl
  | none =>
    refine Or.inr ?_
    by_cases hi : q.mode = .inline
    · have ho : q.offered.isSome := by
        simpa [isDrained, hcall, hinline hi, Option.isSome_iff_ne_none] using hd
      simpa [take?, hcall, hi] using ho
    · cases hw : q.waiting with
      | cons d rest => simp [take?, hcall, hi, hw]
      | nil =>
        have ho : q.offered.isSome := by
          simpa [isDrained, hcall, hw, Option.isSome_iff_ne_none] using hd
        obtain ⟨d, ho⟩ := Option.isSome_iff_exists.mp ho
        obtain hi' | ⟨capacity, hc, hlen⟩ := h.full d ho
        · exact absurd hi' hi
        · rw [hw, List.length_nil] at hlen
          exact absurd (hlen ▸ hc) hm

end DispatchQueue

/-- The counter of a queue with a worker: the session raises it before it hands a delivery over, and
the worker lowers it after it has taken one and before it makes the call. -/
structure Counter where
  queue : DispatchQueue
  value : Nat
  /-- Counted and not handed over yet. -/
  raised : Option Delivery
  /-- The worker has taken a delivery that is still counted. -/
  isTaking : Bool

namespace Counter

inductive Act where
  | raise (d : Delivery)
  | hand
  | take
  | lower
  | finish

def create (mode : DispatchMode) : Counter := ⟨.create mode, 0, none, false⟩

def next (x : Counter) : Act → Counter
  | .raise d =>
    if x.raised.isSome || x.queue.isPushing then x
    else { x with value := x.value + 1, raised := some d }
  | .hand =>
    match x.raised with
    | some d => { x with queue := x.queue.push d, raised := none }
    | none => x
  | .take =>
    match x.queue.take? with
    | some (_, queue) => { x with queue, isTaking := true }
    | none => x
  | .lower => if x.isTaking then { x with value := x.value - 1, isTaking := false } else x
  | .finish => if x.isTaking then x else { x with queue := x.queue.finish }

structure Kept (x : Counter) : Prop where
  hasWorker : x.queue.mode ≠ .inline
  balanced : x.queue.Balanced
  value : x.value = x.queue.pending + x.raised.toList.length + x.isTaking.toNat
  free : x.raised ≠ none → x.queue.offered = none
  taking : x.isTaking = true → x.queue.call.isSome

def run (x : Counter) (acts : List Act) : Counter := acts.foldl next x

variable {x : Counter}

theorem Kept.next (h : x.Kept) (act : Act) : (x.next act).Kept := by
  obtain ⟨hm, hb, hvalue, hfree, htaking⟩ := h
  unfold Counter.next
  cases act with
  | raise d =>
    dsimp only
    split_ifs with hp
    · exact ⟨hm, hb, hvalue, hfree, htaking⟩
    · simp only [Bool.or_eq_true, not_or, Bool.not_eq_true, Option.isSome_eq_false_iff,
        Option.isNone_iff_eq_none] at hp
      refine ⟨hm, hb, ?_, fun _ => DispatchQueue.offered_of_not_pushing hp.2, htaking⟩
      simp only [hvalue, hp.1, Option.toList_none, Option.toList_some, List.length_nil,
        List.length_singleton]
      omega
  | hand =>
    dsimp only
    split
    · next d hr =>
      have ho := hfree (by simp [hr])
      refine ⟨by simpa using hm, hb.push ho d, ?_, fun hno => absurd rfl hno, by simpa using htaking⟩
      simp only [hvalue, hr, DispatchQueue.pending_push hm, Option.toList_none, Option.toList_some,
        List.length_nil, List.length_singleton]
    · exact ⟨hm, hb, hvalue, hfree, htaking⟩
  | take =>
    dsimp only
    split
    · next d queue ht =>
      obtain ⟨hb', hmode, hidle, hcall, ho, hpending⟩ := hb.take ht
      have hpending := hpending.resolve_left hm
      have hnot : x.isTaking = false := by
        cases hi : x.isTaking with
        | false => rfl
        | true =>
          have hbusy := htaking hi
          simp [hidle] at hbusy
      refine ⟨hmode ▸ hm, hb', ?_, fun _ => ho, fun _ => by simp [hcall]⟩
      simp only [hvalue, hpending, hnot, Bool.toNat_true, Bool.toNat_false]
      omega
    · exact ⟨hm, hb, hvalue, hfree, htaking⟩
  | lower =>
    dsimp only
    split_ifs with hi
    · refine ⟨hm, hb, ?_, hfree, fun hno => by cases hno⟩
      simp only [hvalue, hi, Bool.toNat_true, Bool.toNat_false]
      omega
    · exact ⟨hm, hb, hvalue, hfree, htaking⟩
  | finish =>
    dsimp only
    split_ifs with hi
    · exact ⟨hm, hb, hvalue, hfree, htaking⟩
    · exact ⟨hm, ⟨hb.pending, hb.full, hb.within⟩, hvalue, hfree, fun hno => absurd hno hi⟩

/-- The value is off by what the two sides have begun, so it is never lowered from zero. -/
theorem value_run {mode : DispatchMode} (hm : mode ≠ .inline) (acts : List Act) :
    let x := (create mode).run acts
    x.value = x.queue.pending + x.raised.toList.length + x.isTaking.toNat ∧
      (x.isTaking = true → 0 < x.value) := by
  have hrun {x : Counter} (h : x.Kept) : (x.run acts).Kept := by
    induction acts generalizing x with
    | nil => exact h
    | cons act acts ih => exact ih (h.next act)
  have hstart : (create mode).Kept :=
    ⟨hm, DispatchQueue.balanced_create mode, rfl, fun _ => rfl, fun hno => by cases hno⟩
  intro x
  have hvalue : x.value = x.queue.pending + x.raised.toList.length + x.isTaking.toNat :=
    (hrun hstart).value
  refine ⟨hvalue, ?_⟩
  intro hi
  rw [hvalue, hi]
  exact Nat.succ_pos _

end Counter

namespace Relay

structure Kept (mode : DispatchMode) (x : Relay) : Prop where
  mode_eq : x.queue.mode = mode
  balanced : x.queue.Balanced
  carries : x.queue.Carries (x.log.filterMap Mark.pushed?) (x.log.filterMap Mark.called?)
  serial : Mark.Serial x.log
  underWay : Mark.underWay x.log = x.queue.call
  closing : x.isClosing = true → x.queue.isPushing = false

variable {mode : DispatchMode} {x : Relay} {d : Delivery}

theorem kept_create (mode : DispatchMode) : (create mode).Kept mode :=
  ⟨rfl, DispatchQueue.balanced_create mode, ⟨rfl, fun _ => rfl⟩, trivial, rfl, fun _ => by
    simp [create, DispatchQueue.create, DispatchQueue.isPushing]⟩

theorem Kept.push (h : x.Kept mode) (hc : x.isClosing = false) (hp : x.queue.isPushing = false)
    (d : Delivery) :
    Kept mode { x with queue := x.queue.push d, log := .pushed d :: x.log } := by
  have ho := DispatchQueue.offered_of_not_pushing hp
  refine ⟨by simpa using h.mode_eq, h.balanced.push ho d, h.carries.push ho d, h.serial, ?_, ?_⟩
  · simpa [Mark.underWay] using h.underWay
  · intro hcl
    simp [hc] at hcl

theorem Kept.take (h : x.Kept mode) {queue : DispatchQueue}
    (ht : x.queue.take? = some (d, queue)) :
    Kept mode { x with queue, log := .called d :: x.log } := by
  obtain ⟨hb, hmode, hidle, hcall, ho, -⟩ := h.balanced.take ht
  refine ⟨hmode.trans h.mode_eq, hb, (h.carries.take ht).1, ⟨h.underWay.trans hidle, h.serial⟩, hcall.symm, ?_⟩
  intro hcl
  have hp := h.closing hcl
  by_cases hi : x.queue.mode = .inline
  · simp [DispatchQueue.take?, hidle, hi, DispatchQueue.offered_of_not_pushing hp] at ht
  · simp [DispatchQueue.isPushing, ho, hmode, hi]

theorem Kept.finish (h : x.Kept mode) (hc : x.queue.call = some d) (failed : Bool) :
    Kept mode { x with queue := x.queue.finish, log := .returned d failed :: x.log } := by
  refine ⟨h.mode_eq, ⟨h.balanced.pending, h.balanced.full, h.balanced.within⟩,
    ⟨h.carries.order, h.carries.inline⟩, ⟨h.underWay.trans hc, h.serial⟩, rfl, ?_⟩
  intro hcl
  have ho := DispatchQueue.offered_of_not_pushing (h.closing hcl)
  simp [DispatchQueue.isPushing, DispatchQueue.finish, ho]

theorem Kept.next (h : x.Kept mode) (act : Act) : (x.next act).Kept mode := by
  unfold Relay.next
  cases act with
  | push d =>
    dsimp only
    split_ifs with hp
    · exact h
    · simp only [Bool.or_eq_true, not_or, Bool.not_eq_true] at hp
      exact h.push hp.1 hp.2 d
  | take =>
    dsimp only
    split
    · next ht => exact h.take ht
    · exact h
  | finish failed =>
    dsimp only
    split
    · next hc => exact h.finish hc failed
    · exact h
  | close =>
    dsimp only
    split_ifs with hp
    · exact h
    · exact ⟨h.mode_eq, h.balanced, h.carries, h.serial, h.underWay, fun _ => by simpa using hp⟩

theorem kept_run (mode : DispatchMode) (acts : List Act) :
    ((create mode).run acts).Kept mode := by
  have hrun {x : Relay} (h : x.Kept mode) : (x.run acts).Kept mode := by
    induction acts generalizing x with
    | nil => exact h
    | cons act acts ih => exact ih (h.next act)
  exact hrun (kept_create mode)

theorem Kept.pushes_eq (h : x.Kept mode) :
    x.pushes = x.calls ++ x.queue.waiting ++ x.queue.offered.toList := by
  simp [pushes, calls, h.carries.order]

/-- Without a worker, whoever is not pushing has nothing left to wait for. -/
theorem Kept.drained_inline (h : x.Kept mode) (hi : x.queue.mode = .inline)
    (hp : x.queue.isPushing = false) : x.queue.isDrained = true := by
  have hw := h.carries.inline hi
  simp only [DispatchQueue.isPushing, hi, beq_self_eq_true, Bool.true_and,
    Bool.or_eq_false_iff, Option.isSome_eq_false_iff, Option.isNone_iff_eq_none] at hp
  simp [DispatchQueue.isDrained, hw, hp.1, hp.2]

theorem Kept.of_drained (h : x.Kept mode) (hd : x.queue.isDrained = true) :
    x.calls = x.pushes ∧ Mark.underWay x.log = none := by
  simp only [DispatchQueue.isDrained, Bool.and_eq_true, List.isEmpty_iff,
    Option.isNone_iff_eq_none] at hd
  obtain ⟨⟨hw, ho⟩, hc⟩ := hd
  refine ⟨?_, h.underWay.trans hc⟩
  rw [h.pushes_eq, hw, ho]
  simp

/-- In every mode, and however the session, the worker and failing calls are interleaved, the handler
is called once for each delivery that was pushed, in order, and never while an earlier call is under
way. The counter tells how many were pushed and not taken, and closing is over only when all have been
handled, which nothing but a call that does not return can put off. Two modes give the handler the
same calls for the same deliveries. -/
theorem handler_calls_are_pushes_in_order (kind : DispatchKind) (capacity : Nat)
    (acts : List Act) :
    let x := (create (.ofConfig kind capacity)).run acts
    x.pushes = x.calls ++ x.queue.waiting ++ x.queue.offered.toList ∧
      Mark.Serial x.log ∧
      (if x.queue.mode = .inline then x.queue.pending = 0
        else x.queue.pending + x.calls.length = x.pushes.length) ∧
      (x.isClosed = true → x.calls = x.pushes ∧ Mark.underWay x.log = none) ∧
      (x.isClosing = true → x.isClosed = false →
        x.queue.mode ≠ .inline ∧ (x.queue.call.isSome ∨ x.queue.take?.isSome)) ∧
      ∀ kind' capacity' acts',
        let y := (create (.ofConfig kind' capacity')).run acts'
        x.isClosed = true → y.isClosed = true → x.pushes = y.pushes → x.calls = y.calls := by
  intro x
  have h : x.Kept (.ofConfig kind capacity) := kept_run _ acts
  have hclosed {mode : DispatchMode} {x : Relay} (h : x.Kept mode) (hc : x.isClosed = true) :
      x.calls = x.pushes ∧ Mark.underWay x.log = none := by
    simp only [isClosed, Bool.and_eq_true] at hc
    exact h.of_drained hc.2
  refine ⟨h.pushes_eq, h.serial, ?_, hclosed h, ?_, ?_⟩
  · split_ifs with hi
    · simpa [hi] using h.balanced.pending
    · have hpending := h.balanced.pending
      rw [if_neg hi] at hpending
      rw [hpending, h.pushes_eq, DispatchQueue.load]
      simp only [List.length_append]
      omega
  · intro hcl hc
    have hd : x.queue.isDrained = false := by simpa [isClosed, hcl] using hc
    refine ⟨?_, h.balanced.progress ?_ h.carries.inline hd⟩
    · intro hi
      rw [h.drained_inline hi (h.closing hcl)] at hd
      cases hd
    · rw [h.mode_eq]
      exact DispatchMode.ofConfig_ne_bounded_zero kind capacity
  · intro kind' capacity' acts' y hx hy hp
    have h' : y.Kept (.ofConfig kind' capacity') := kept_run _ acts'
    rw [(hclosed h hx).1, (hclosed h' hy).1, hp]

end Relay

end Parley.Gateway
