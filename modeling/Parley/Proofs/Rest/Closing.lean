import Parley.Proofs.Rest.Booking
import Parley.Proofs.Rest.Onward

/-! A queue that has been closed ends every request with its next step, for the reason of the first
closing. Nothing is sent any more, and a send that is aborted gives its slot back. -/
namespace Parley.Rest

namespace Queue

variable {q q' : Queue} {now : Instant}

theorem Edit.closed_eq (h : Edit now q q') : q'.closed = q.closed := by
  cases h <;> rfl

theorem Edits.closed_eq (h : Edits now q q') : q'.closed = q.closed := by
  induction h with
  | refl => rfl
  | tail _ he ih => exact he.closed_eq.trans ih

theorem info_of_charge {lane : Nat} {info : RateLimit} {isRefusal : Bool} {b : Booked}
    (h : q.charge lane info isRefusal now = (q', some b)) : b.info = info := by
  unfold charge at h
  split at h
  · simp at h
  · split at h
    · simp at h
    · cases isRefusal with
      | false => rw [← Option.some.inj (Prod.mk.inj h).2]
      | true =>
        simp only [if_true] at h
        split at h
        · simp at h
        · rw [← Option.some.inj (Prod.mk.inj h).2]

theorem info_of_book {lane : Nat} {key : BucketKey} {r : Response} {b : Booked}
    (h : q.book lane key r now = (q', some b)) : b.info = infoOf r := by
  rw [book_eq] at h
  exact info_of_charge h

end Queue

namespace Traffic

def Act.closing? : Act → Option ClientError
  | .close reason => some reason
  | _ => none

theorem closed_next (x : Traffic) (e : Event) :
    (x.next e).queue.closed = (x.queue.closed <|> e.act.closing?) := by
  have hnone (c : Option ClientError) : (c <|> none) = c := by cases c <;> rfl
  obtain ⟨now, act⟩ := e
  unfold next
  cases act with
  | submit id request =>
    simp only [Act.closing?, hnone]
    split <;> rfl
  | wake id wake =>
    simp only [Act.closing?, hnone]
    split
    · next s _ =>
      split_ifs
      · exact (s.edits_step x.queue id now wake).closed_eq
      · rfl
    · rfl
  | cancel id =>
    simp only [Act.closing?, hnone]
    split <;> rfl
  | abandon id =>
    simp only [Act.closing?, hnone]
    split
    · next s _ => exact (s.touches_abandon x.queue id now).edits.closed_eq
    · rfl
  | close reason => rfl
  | trip until_ => exact (hnone _).symm
  | look => exact (hnone _).symm
  | find key => exact (hnone _).symm
  | cleanup idle => exact (hnone _).symm

end Traffic

/-- Who closes a queue records a reason, if none is there, and then raises the signal. -/
structure CloseSignal where
  reason : Option ClientError
  raised : Bool

namespace CloseSignal

inductive Half where
  | record (reason : ClientError)
  | raise
deriving DecidableEq

def Half.reason? : Half → Option ClientError
  | .record reason => some reason
  | .raise => none

def next (s : CloseSignal) : Half → CloseSignal
  | .record reason => { s with reason := s.reason <|> some reason }
  | .raise => { s with raised := true }

def run (s : CloseSignal) (halves : List Half) : CloseSignal := halves.foldl next s

def lowered : CloseSignal := ⟨none, false⟩

/-- What a request sees that looks whether the signal is raised before it looks for the reason. -/
def failure? (s : CloseSignal) : Option ClientError :=
  if s.raised then
    some ((s.reason.map ClientError.duplicate).getD (.transportClosed "request queue closed"))
  else none

/-- Each raise has its record before it. -/
def Orderly (halves : List Half) : Prop :=
  ∀ before, before ++ [Half.raise] <+: halves → ∃ reason, Half.record reason ∈ before

@[simp] theorem run_nil (s : CloseSignal) : s.run [] = s := rfl

@[simp] theorem run_cons (s : CloseSignal) (half : Half) (halves : List Half) :
    s.run (half :: halves) = (s.next half).run halves := rfl

theorem raised_run (s : CloseSignal) (halves : List Half) :
    (s.run halves).raised = true ↔ s.raised = true ∨ Half.raise ∈ halves := by
  induction halves generalizing s with
  | nil => simp
  | cons half halves ih =>
    rw [run_cons, ih]
    cases half <;> simp [next]

theorem reason_run (s : CloseSignal) (halves : List Half) :
    (s.run halves).reason = (s.reason <|> halves.findSome? Half.reason?) := by
  induction halves generalizing s with
  | nil => cases h : s.reason <;> simp [h]
  | cons half halves ih =>
    rw [run_cons, ih]
    cases half <;> cases h : s.reason <;> simp [next, List.findSome?_cons, Half.reason?, h]

theorem closed_foldl (q : Queue) (reasons : List ClientError) :
    (reasons.foldl Queue.close q).closed = (q.closed <|> reasons.head?) := by
  induction reasons generalizing q with
  | nil => cases h : q.closed <;> simp [h]
  | cons reason reasons ih =>
    rw [List.foldl_cons, ih]
    cases h : q.closed <;> simp [Queue.close, h]

/-- However the two steps of several closers are mixed, nothing is seen before the first raise, and
from then on what a queue says that has been closed for the recorded reasons one after another. -/
theorem failure_of_orderly {halves : List Half} (h : Orderly halves) (backoff : Duration) :
    (lowered.run halves).failure? =
      if Half.raise ∈ halves then
        ((halves.filterMap Half.reason?).foldl Queue.close (.create backoff)).failure?
      else none := by
  have hraised : (lowered.run halves).raised = true ↔ Half.raise ∈ halves := by
    simpa [lowered] using raised_run lowered halves
  unfold failure?
  by_cases hm : Half.raise ∈ halves
  · have hfirst : (halves.findSome? Half.reason?).isSome := by
      obtain ⟨before, after, hsplit⟩ := List.append_of_mem hm
      obtain ⟨recorded, hrec⟩ := h before ⟨after, by simp [hsplit]⟩
      rw [List.findSome?_isSome_iff, hsplit]
      exact ⟨.record recorded, List.mem_append_left _ hrec, rfl⟩
    obtain ⟨reason, hreason⟩ := Option.isSome_iff_exists.mp hfirst
    rw [if_pos (hraised.mpr hm), if_pos hm, reason_run, hreason]
    simp [lowered, Queue.failure?, closed_foldl, Queue.create, List.head?_filterMap, hreason]
  · rw [if_neg (mt hraised.mp hm), if_neg hm]

end CloseSignal

/-- The policy has a request sent again after the outcome, when so many bad gateways have been
retried before. -/
def Retries (p : RetryPolicy) (retried : Nat) : Outcome → Prop
  | .ok r =>
    r.isRefusal = true ∧ p.rateLimits = true ∨
      r.isBadGateway = true ∧ p.badGateway = true ∧ retried < Submission.badGatewayLimit
  | .error e => e = .timeout ∧ p.timeouts = true

namespace Submission

/-- What a request is told that comes to the start of a round, or asks for a slot, when the queue has
been closed. -/
def told (s : Submission) (reason : ClientError) : ClientError :=
  if s.canceled then .canceled else reason.duplicate

variable {q : Queue} {id : Nat} {s : Submission} {now : Instant} {reason : ClientError}

/-- A response that cannot be booked loses its request, and no other response does. -/
theorem phase_onResponse_eq_lost_iff {lane : Nat} {r : Response} :
    (onResponse q s lane r now).2.phase = .lost ↔ (q.book lane s.key r now).2 = none := by
  have hagain (q' : Queue) (s' : Submission) : (s'.again q' now).phase ≠ .lost := by
    unfold again finish
    split <;> simp
  unfold onResponse
  cases hb : q.book lane s.key r now with
  | mk q' booked =>
    cases booked with
    | none => simp
    | some b =>
      have hfinish (result : Outcome) : (s.finish result).phase ≠ .lost := by simp [finish]
      simp only [reduceCtorEq, iff_false]
      split_ifs
      · exact hfinish _
      · exact hagain q' s
      · exact hfinish _
      · exact hfinish _
      · exact hagain q' _
      · exact hfinish _

end Submission

namespace Traffic

end Traffic

end Parley.Rest
