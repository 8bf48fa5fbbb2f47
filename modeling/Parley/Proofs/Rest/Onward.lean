import Parley.Proofs.Rest.GlobalLimit

/-! What a step makes of a request. Without an answer only its phase changes, and it does not go on
past its deadline or into a wait that ends later; an answer ends the request or begins a new
round. -/
namespace Parley.Rest

namespace Terms

variable {t : Terms} {signals : Signals} {label : String} {now until_ : Instant}

theorem failure?_eq_none :
    t.failure? signals now = none ↔
      signals.canceled = false ∧ signals.closed = none ∧ now < t.deadline := by
  unfold failure?
  cases signals.canceled with
  | true => simp
  | false =>
    cases signals.closed with
    | some reason => simp
    | none => simp [Instant.le_iff, Instant.lt_iff]

theorem waitFailure?_eq_none :
    t.waitFailure? signals label now until_ = none ↔
      t.failure? signals now = none ∧ t.retry.rateLimits = true ∧ until_ ≤ t.deadline := by
  unfold waitFailure?
  cases t.failure? signals now with
  | some e => simp
  | none => simp [Instant.le_iff, Instant.lt_iff]

end Terms

theorem Lane.le_deadline_of_ask {l : Lane} {request : Nat} {terms : Terms} {signals : Signals}
    {now until_ : Instant} (h : (l.ask request terms signals now).2 = .asleep until_) :
    until_ ≤ terms.deadline := by
  unfold ask at h
  split at h
  · simp at h
  · split at h
    · simp at h
    · next reset _ =>
      dsimp only at h
      split at h
      · simp at h
      · next hw =>
        obtain rfl := Place.asleep.inj h
        exact (Terms.waitFailure?_eq_none.mp hw).2.2

theorem Lane.le_deadline_of_arrive {l : Lane} {request : Nat} {terms : Terms} {signals : Signals}
    {now until_ : Instant} (h : (l.arrive request terms signals now).2 = .asleep until_) :
    until_ ≤ terms.deadline := by
  unfold arrive at h
  split at h
  · simp at h
  · dsimp only at h
    split_ifs at h
    exact le_deadline_of_ask h

namespace Submission

def limitEnd? (s : Submission) : Option Instant :=
  match s.phase with
  | .atGate until_ | .asleep _ until_ => some until_
  | _ => none

structure GoesOn (q : Queue) (s : Submission) (now : Instant) (s' : Submission) : Prop where
  only_phase : s' = { s with phase := s'.phase }
  unless_over : s'.isOver = false →
    s.terms.failure? (s.signals q) now = none ∧ ∀ u ∈ s'.limitEnd?, u ≤ s.terms.deadline

variable {q : Queue} {id : Nat} {s : Submission} {now : Instant} {wake : Wake}

theorem goesOn_finish (result : Outcome) : GoesOn q s now (s.finish result) :=
  ⟨rfl, by simp [isOver, finish]⟩

theorem goesOn_lost : GoesOn q s now { s with phase := .lost } :=
  ⟨rfl, by simp [isOver]⟩

theorem goesOn_launch (hf : s.terms.failure? (s.signals q) now = none) (q' : Queue) (lane : Nat) :
    GoesOn q s now (launch q' id s lane now).2 := by
  unfold launch
  dsimp only
  split_ifs
  · exact ⟨rfl, fun _ => ⟨hf, by simp [limitEnd?]⟩⟩
  · exact ⟨rfl, fun _ => ⟨hf, by simp [limitEnd?]⟩⟩
  · exact ⟨rfl, fun _ => ⟨hf, by simp [limitEnd?]⟩⟩

theorem goesOn_settle (hf : s.terms.failure? (s.signals q) now = none) (q' : Queue) (number : Nat)
    {place : Lane × Place} (hp : ∀ u, place.2 = .asleep u → u ≤ s.terms.deadline) :
    GoesOn q s now (settle q' id s number now place).2 := by
  obtain ⟨lane, place⟩ := place
  cases place with
  | inLine => exact ⟨rfl, fun _ => ⟨hf, by simp [settle, limitEnd?]⟩⟩
  | asleep u =>
    have hu : u ≤ s.terms.deadline := hp u rfl
    exact ⟨rfl, fun _ => ⟨hf, by simpa [settle, limitEnd?] using hu⟩⟩
  | granted => exact goesOn_launch hf _ number
  | refused e => exact goesOn_finish (.error e)

theorem goesOn_ask (number : Nat) : GoesOn q s now (ask q id s number now).2 := by
  unfold ask
  split
  · next lane _ =>
    cases hf : s.terms.failure? (s.signals q) now with
    | none => exact goesOn_settle hf q number fun u hu => Lane.le_deadline_of_ask hu
    | some e =>
      have ha : lane.ask id s.terms (s.signals q) now = (lane.leave id, .refused e) := by
        simp only [Lane.ask, hf]
      rw [ha]
      exact goesOn_finish (.error e)
  · exact goesOn_lost

theorem goesOn_enter : GoesOn q s now (enter q id s now).2 := by
  unfold enter
  split
  · exact goesOn_finish _
  · next hf =>
    dsimp only
    split
    · next until_ _ =>
      split
      · exact goesOn_finish _
      · next hw =>
        have hu : until_ ≤ s.terms.deadline := (Terms.waitFailure?_eq_none.mp hw).2.2
        exact ⟨rfl, fun _ => ⟨hf, by simpa [limitEnd?] using hu⟩⟩
    · split
      · exact goesOn_settle hf _ _ fun u hu => Lane.le_deadline_of_arrive hu
      · exact goesOn_lost

/-- A request that waits for anything but the transport gives up. -/
theorem goesOn_abort (h : s.isSending = false) (e : ClientError) :
    GoesOn q s now (abort q id s e now).2 := by
  unfold abort
  split
  · exact goesOn_finish _
  · exact goesOn_finish _
  · next hp => simp [isSending, hp] at h
  · exact goesOn_finish _

inductive Lands (s : Submission) (now : Instant) : Submission → Prop
  | again (q' : Queue) (retried : Nat) :
      Lands s now ({ s with badGateways := retried }.again q' now)
  | finish (result : Outcome) : Lands s now (s.finish result)
  | lost : Lands s now { s with phase := .lost }

theorem lands_land (lane : Nat) (outcome : Outcome) :
    Lands s now (land q id s lane outcome now).2 := by
  cases outcome with
  | ok r =>
    simp only [land, onResponse]
    split
    · exact .lost
    · split_ifs
      · exact .finish _
      · exact .again _ s.badGateways
      · exact .finish _
      · exact .finish _
      · exact .again _ (s.badGateways + 1)
      · exact .finish _
  | error e =>
    simp only [land, onFailure]
    split_ifs
    · exact .again _ s.badGateways
    · exact .finish _

/-- An answer ends the request or begins a round in time. -/
theorem Lands.over_or_again {s' : Submission} (h : Lands s now s') :
    s'.isOver = true ∨ s'.phase = .entering ∧ now < s.terms.deadline := by
  cases h with
  | again q' retried =>
    unfold Submission.again
    split
    · exact Or.inl rfl
    · next hf => exact Or.inr ⟨rfl, (Terms.failure?_eq_none.mp hf).2.2⟩
  | finish result => exact Or.inl rfl
  | lost => exact Or.inl rfl

/-- What a step makes of a request that can go on. -/
inductive Stepped (q : Queue) (s : Submission) (now : Instant) : Submission → Prop
  | comes (h : s.phase = .submitted) : Stepped q s now { s with phase := .entering }
  | goesOn {s' : Submission} (hs : s.isSending = false) (h : GoesOn q s now s') :
      Stepped q s now s'
  | lands {s' : Submission} (hs : s.isSending = true) (h : Lands s now s') : Stepped q s now s'

theorem stepped_abort (e : ClientError) : Stepped q s now (abort q id s e now).2 := by
  cases hs : s.isSending with
  | false => exact .goesOn hs (goesOn_abort hs e)
  | true =>
    obtain ⟨lane, hp⟩ := exists_lane_of_isSending hs
    have ha : abort q id s e now = land q id s lane (.error e) now := by
      simp only [abort, hp]
    rw [ha]
    exact .lands hs (lands_land lane (.error e))

theorem step_canceled (hw : s.isWaiting = true) :
    step q id s now .canceled = abort q id s .canceled now := by
  unfold isWaiting at hw
  cases hp : s.phase with
  | atGate until_ => simp [step, hp, isWaiting]
  | inLine lane => simp [step, hp, isWaiting]
  | asleep lane until_ => simp [step, hp, isWaiting]
  | sending lane => simp [step, hp, isWaiting]
  | _ => simp [hp] at hw

theorem step_closed {reason : ClientError} (hc : q.closed = some reason) (hw : s.isWaiting = true) :
    step q id s now .closed = abort q id s reason.duplicate now := by
  have hf : q.failure? = some reason.duplicate := by simp [Queue.failure?, hc]
  unfold isWaiting at hw
  cases hp : s.phase with
  | atGate until_ => simp [step, hp, hf, isWaiting]
  | inLine lane => simp [step, hp, hf, isWaiting]
  | asleep lane until_ => simp [step, hp, hf, isWaiting]
  | sending lane => simp [step, hp, hf, isWaiting]
  | _ => simp [hp] at hw

theorem registry_of_failed {lane : Nat} (hp : s.phase = .sending lane)
    (ha : s.allows q id now wake = true) (hr : ∀ r, wake ≠ .answered (.ok r)) :
    (step q id s now wake).1.registry =
      (q.registry.modifyLane lane (·.land id)).modifyLane lane .refund := by
  have hland (e : ClientError) : (land q id s lane (.error e) now).1.registry =
      (q.registry.modifyLane lane (·.land id)).modifyLane lane .refund := by
    simp only [land, onFailure]
    split_ifs <;> rfl
  have habort (e : ClientError) : abort q id s e now = land q id s lane (.error e) now := by
    simp only [abort, hp]
  cases wake with
  | ready => simp [allows, hp] at ha
  | timer => simp [allows, hp] at ha
  | turn => simp [allows, hp] at ha
  | deadline => simp [allows, hp] at ha
  | canceled =>
    simp only [allows, Bool.and_eq_true] at ha
    rw [step_canceled ha.1, habort]
    exact hland _
  | closed =>
    simp only [allows, Bool.and_eq_true, Queue.isClosed, Option.isSome_iff_exists] at ha
    obtain ⟨hw, reason, hc⟩ := ha
    rw [step_closed hc hw, habort]
    exact hland _
  | answered outcome =>
    cases outcome with
    | ok r => exact absurd rfl (hr r)
    | error e =>
      simp only [step, hp]
      exact hland e

theorem stepped_step (ha : s.allows q id now wake = true) :
    Stepped q s now (step q id s now wake).2 := by
  cases wake with
  | ready =>
    cases hp : s.phase with
    | submitted =>
      simp only [step, hp]
      split
      · exact .goesOn (by simp [isSending, hp]) (goesOn_finish _)
      · exact .comes hp
    | entering =>
      simp only [step, hp]
      exact .goesOn (by simp [isSending, hp]) goesOn_enter
    | _ => simp [allows, hp] at ha
  | timer =>
    cases hp : s.phase with
    | atGate until_ =>
      simp only [step, hp]
      exact .goesOn (by simp [isSending, hp]) goesOn_enter
    | asleep lane until_ =>
      simp only [step, hp]
      exact .goesOn (by simp [isSending, hp]) (goesOn_ask lane)
    | _ => simp [allows, hp] at ha
  | turn =>
    cases hp : s.phase with
    | inLine lane =>
      simp only [step, hp]
      exact .goesOn (by simp [isSending, hp]) (goesOn_ask lane)
    | _ => simp [allows, hp] at ha
  | deadline =>
    cases hp : s.phase with
    | inLine lane =>
      simp only [step, hp]
      exact stepped_abort .timeout
    | _ => simp [allows, hp] at ha
  | answered outcome =>
    cases hp : s.phase with
    | sending lane =>
      simp only [step, hp]
      exact .lands (by simp [isSending, hp]) (lands_land lane outcome)
    | _ => simp [allows, hp] at ha
  | canceled =>
    simp only [allows, Bool.and_eq_true] at ha
    rw [step_canceled ha.1]
    exact stepped_abort .canceled
  | closed =>
    simp only [allows, Bool.and_eq_true, Queue.isClosed, Option.isSome_iff_exists] at ha
    obtain ⟨hw, reason, hc⟩ := ha
    rw [step_closed hc hw]
    exact stepped_abort reason.duplicate

/-- Nothing differs but the phase and the count of retried answers. -/
structure Alike (s s' : Submission) : Prop where
  request : s'.request = s.request
  terms : s'.terms = s.terms
  canceled : s'.canceled = s.canceled

theorem alike_again (q : Queue) (s : Submission) (now : Instant) : Alike s (s.again q now) := by
  unfold again
  split
  · exact ⟨rfl, rfl, rfl⟩
  · exact ⟨rfl, rfl, rfl⟩

theorem GoesOn.alike {s' : Submission} (h : GoesOn q s now s') : Alike s s' := by
  rw [h.only_phase]
  exact ⟨rfl, rfl, rfl⟩

theorem Lands.alike {s' : Submission} (h : Lands s now s') : Alike s s' := by
  cases h with
  | again q' retried =>
    obtain ⟨hr, ht, hc⟩ := alike_again q' { s with badGateways := retried } now
    exact ⟨hr, ht, hc⟩
  | finish result => exact ⟨rfl, rfl, rfl⟩
  | lost => exact ⟨rfl, rfl, rfl⟩

theorem Stepped.alike {s' : Submission} (h : Stepped q s now s') : Alike s s' := by
  cases h with
  | comes hp => exact ⟨rfl, rfl, rfl⟩
  | goesOn hs h => exact h.alike
  | lands hs h => exact h.alike

theorem alike_abandon (q : Queue) (id : Nat) (s : Submission) : Alike s (s.abandon q id).2 := by
  unfold abandon
  dsimp only
  split_ifs
  · exact ⟨rfl, rfl, rfl⟩
  · exact ⟨rfl, rfl, rfl⟩

theorem key_step (ha : s.allows q id now wake = true) : (step q id s now wake).2.key = s.key := by
  rw [key, key, (stepped_step ha).alike.request]

theorem isOver_abandon (q : Queue) (id : Nat) (s : Submission) :
    (s.abandon q id).2.isOver = true := by
  unfold abandon
  dsimp only
  split_ifs with h
  · exact h
  · rfl

theorem not_allows_of_isOver (ho : s.isOver = true) : s.allows q id now wake = false := by
  unfold isOver at ho
  cases hp : s.phase with
  | done result => cases wake <;> simp [allows, isWaiting, hp]
  | lost => cases wake <;> simp [allows, isWaiting, hp]
  | _ => simp [hp] at ho

end Submission

end Parley.Rest
