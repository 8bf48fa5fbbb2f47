import Parley.Proofs.Rest.Edits

/-! A queue with all its requests. Any of them may take its next step at any time, and others close
the queue, trip or read its gate, look up buckets and clean up between any two steps. -/
namespace Parley.Rest

structure Traffic where
  queue : Queue
  submissions : Nat → Option Submission

namespace Traffic

inductive Act where
  | submit (id : Nat) (request : Request)
  | wake (id : Nat) (wake : Wake)
  | cancel (id : Nat)
  | abandon (id : Nat)
  | close (reason : ClientError)
  | trip (until_ : Instant)
  | look
  | find (key : BucketKey)
  | cleanup (idle : Duration)

abbrev Event := Timed Act

def create (backoff : Duration) : Traffic := ⟨.create backoff, fun _ => none⟩

def put (x : Traffic) (id : Nat) (next : Queue × Submission) : Traffic where
  queue := next.1
  submissions := fun other => if other = id then some next.2 else x.submissions other

def next (x : Traffic) (e : Event) : Traffic :=
  match e.act with
  | .submit id request =>
    match x.submissions id with
    | none => x.put id (x.queue, .create request e.time)
    | some _ => x
  | .wake id wake =>
    match x.submissions id with
    | some s =>
      if s.allows x.queue id e.time wake then x.put id (s.step x.queue id e.time wake) else x
    | none => x
  | .cancel id =>
    match x.submissions id with
    | some s => x.put id (x.queue, s.cancel)
    | none => x
  | .abandon id =>
    match x.submissions id with
    | some s => x.put id (s.abandon x.queue id)
    | none => x
  | .close reason => { x with queue := x.queue.close reason }
  | .trip until_ => { x with queue := { x.queue with gate := x.queue.gate.trip until_ } }
  | .look => { x with queue := { x.queue with gate := (x.queue.gate.blockedUntil e.time).1 } }
  | .find key => { x with queue := (x.queue.bucket? key e.time).1 }
  | .cleanup idle => { x with queue := (x.queue.cleanup idle e.time).1 }

def run (x : Traffic) (events : List Event) : Traffic := events.foldl next x

def plainRequest (method : Method) (path : String) : Request :=
  ⟨method, .fixed path, none, .standard⟩

/-- The request comes in and is given to the transport, if nothing holds it back. -/
def sendOf (id : Nat) (request : Request) : List Event :=
  [⟨⟨0⟩, .submit id request⟩, ⟨⟨0⟩, .wake id .ready⟩, ⟨⟨0⟩, .wake id .ready⟩]

variable (x : Traffic)

@[simp] theorem run_nil : x.run [] = x := rfl

@[simp] theorem run_cons (e : Event) (events : List Event) :
    x.run (e :: events) = (x.next e).run events := rfl

theorem run_concat (events : List Event) (e : Event) :
    x.run (events ++ [e]) = (x.run events).next e := by
  simp [run]

@[simp] theorem queue_put (id : Nat) (next : Queue × Submission) :
    (x.put id next).queue = next.1 := rfl

@[simp] theorem submissions_put (id : Nat) (next : Queue × Submission) :
    (x.put id next).submissions id = some next.2 := by
  simp [put]

end Traffic

namespace Queue

/-- A change to the queue at one instant, by a request or by somebody else. -/
inductive Move (now : Instant) : Queue → Queue → Prop
  | edits {q q'} (h : Edits now q q') : Move now q q'
  | close (q reason) : Move now q (q.close reason)
  | cleanup (q idle) : Move now q (q.cleanup idle now).1

end Queue

namespace Traffic

open Queue (Edits Move Touches)

structure Answer where
  id : Nat
  submission : Submission
  lane : Nat
  response : Response

namespace Answer

def hash? (a : Answer) : Option BucketHash :=
  (Queue.infoOf a.response).bucket.map fun hash => ⟨hash, a.submission.key.major⟩

def landed (a : Answer) (q : Queue) : Queue :=
  { q with registry := q.registry.modifyLane a.lane (·.land a.id) }

end Answer

def answer? (x : Traffic) (e : Event) : Option Answer :=
  match e.act with
  | .wake id (.answered (.ok r)) =>
    match x.submissions id with
    | some s =>
      match s.phase with
      | .sending lane => some ⟨id, s, lane, r⟩
      | _ => none
    | none => none
  | _ => none

theorem answer?_eq_some {x : Traffic} {e : Event} {a : Answer} (h : x.answer? e = some a) :
    e.act = .wake a.id (.answered (.ok a.response)) ∧
      x.submissions a.id = some a.submission ∧ a.submission.phase = .sending a.lane := by
  unfold answer? at h
  split at h
  · next ha =>
    split at h
    · next hs =>
      split at h
      · next hp =>
        obtain rfl := Option.some.inj h
        exact ⟨ha, hs, hp⟩
      · simp at h
    · simp at h
  · simp at h

theorem answer?_of_sending {x : Traffic} {e : Event} {id lane : Nat} {s : Submission} {r : Response}
    (ha : e.act = .wake id (.answered (.ok r))) (hs : x.submissions id = some s)
    (hp : s.phase = .sending lane) : x.answer? e = some ⟨id, s, lane, r⟩ := by
  simp [answer?, ha, hs, hp]

theorem next_of_answer {x : Traffic} {e : Event} {a : Answer} (h : x.answer? e = some a) :
    (x.next e).queue =
      ((a.landed x.queue).book a.lane a.submission.key a.response e.time).1 := by
  obtain ⟨ha, hs, hp⟩ := answer?_eq_some h
  simp only [next, ha, hs, Submission.allows, hp, if_true, queue_put, Submission.step,
    Submission.land, Submission.onResponse_queue]
  rfl

theorem next_cases (x : Traffic) (e : Event) :
    (∃ a, x.answer? e = some a) ∨ Touches e.time x.queue (x.next e).queue ∨
      (∃ reason, (x.next e).queue = x.queue.close reason) ∨
      (∃ until_, (x.next e).queue = { x.queue with gate := x.queue.gate.trip until_ }) ∨
      ∃ idle, e.act = .cleanup idle ∧ (x.next e).queue = (x.queue.cleanup idle e.time).1 := by
  have hstay : Touches e.time x.queue x.queue := .refl
  obtain ⟨now, act⟩ := e
  unfold next
  cases act with
  | submit id request =>
    refine Or.inr (Or.inl ?_)
    dsimp only
    split
    · exact hstay
    · exact hstay
  | wake id wake =>
    dsimp only
    split
    · next s hs =>
      split_ifs
      · rcases s.step_cases x.queue id now wake with h | ⟨lane, r, hp, rfl, -⟩
        · exact Or.inr (Or.inl h)
        · exact Or.inl ⟨_, answer?_of_sending rfl hs hp⟩
      · exact Or.inr (Or.inl hstay)
    · exact Or.inr (Or.inl hstay)
  | cancel id =>
    refine Or.inr (Or.inl ?_)
    dsimp only
    split
    · exact hstay
    · exact hstay
  | abandon id =>
    refine Or.inr (Or.inl ?_)
    dsimp only
    split
    · next s _ => exact s.touches_abandon x.queue id now
    · exact hstay
  | close reason => exact Or.inr (Or.inr (Or.inl ⟨reason, rfl⟩))
  | trip until_ => exact Or.inr (Or.inr (Or.inr (Or.inl ⟨until_, rfl⟩)))
  | look => exact Or.inr (Or.inl (.one (.look x.queue)))
  | find key => exact Or.inr (Or.inl (.one (.resolve x.queue key)))
  | cleanup idle => exact Or.inr (Or.inr (Or.inr (Or.inr ⟨idle, rfl, rfl⟩)))

theorem move_next (x : Traffic) (e : Event) : Move e.time x.queue (x.next e).queue := by
  rcases x.next_cases e with ⟨a, ha⟩ | h | ⟨reason, h⟩ | ⟨until_, h⟩ | ⟨idle, -, h⟩
  · rw [next_of_answer ha]
    have hl : Touches e.time x.queue (a.landed x.queue) :=
      Submission.touches_land x.queue a.id e.time a.lane
    exact .edits (hl.edits.trans (Edits.book _ _ _ _))
  · exact .edits h.edits
  · exact h ▸ .close x.queue reason
  · exact h ▸ .edits (.one (.trip x.queue until_))
  · exact h ▸ .cleanup x.queue idle

/-- What every move keeps, a run keeps. -/
theorem run_keeps {P : Queue → Prop} (x : Traffic) (events : List Event) (h : P x.queue)
    (hk : ∀ e ∈ events, ∀ q q', Move e.time q q' → P q → P q') : P (x.run events).queue := by
  induction events generalizing x with
  | nil => exact h
  | cons e events ih =>
    have hn := hk e List.mem_cons_self _ _ (x.move_next e) h
    exact ih (x.next e) hn fun d hd => hk d (List.mem_cons_of_mem e hd)

end Traffic

end Parley.Rest
