import Parley.Proofs.Rest.Holding
import Parley.Proofs.Rest.Onward

/-! Where a request asks for a slot, and what it is told. Every place in a line and every send comes
out of such a question. -/
namespace Parley.Rest

namespace Submission

/-- The queue in which the question is put, the lane that is asked, and the lane afterwards with the
answer. -/
structure Question where
  queue : Queue
  lane : Nat
  answer : Lane × Place

variable (q : Queue) (id : Nat) (s : Submission) (now : Instant)

def passed : Queue :=
  { q with
    gate := (q.gate.blockedUntil now).1
    registry := (q.registry.resolve s.key now).1 }

/-- The question for the lane of its key with which a request passes the gate. -/
def knocks? : Option Question :=
  if s.terms.failure? (s.signals q) now = none ∧ q.gate.isOpen now then
    ((passed q s now).registry.lane? (q.registry.resolve s.key now).2).map fun lane =>
      ⟨passed q s now, (q.registry.resolve s.key now).2,
        lane.arrive id s.terms (s.signals q) now⟩
  else none

def asksAt? (number : Nat) : Option Question :=
  (q.registry.lane? number).map fun lane =>
    ⟨q, number, lane.ask id s.terms (s.signals q) now⟩

def question? (wake : Wake) : Option Question :=
  match s.phase, wake with
  | .entering, .ready | .atGate _, .timer => knocks? q id s now
  | .inLine lane, .turn | .asleep lane _, .timer => asksAt? q id s now lane
  | _, _ => none

variable {q : Queue} {id : Nat} {s : Submission} {now : Instant} {wake : Wake} {a : Question}

theorem enter_of_passed (hf : s.terms.failure? (s.signals q) now = none)
    (hg : q.gate.isOpen now = true) :
    enter q id s now =
      match (passed q s now).registry.lane? (q.registry.resolve s.key now).2 with
      | some lane =>
        settle (passed q s now) id s (q.registry.resolve s.key now).2 now
          (lane.arrive id s.terms (s.signals q) now)
      | none => (passed q s now, { s with phase := .lost }) := by
  have hb : (q.gate.blockedUntil now).2 = none := by simpa [Gate.isOpen] using hg
  simp only [enter, hf, hb]
  rfl

theorem enter_of_knocks (h : knocks? q id s now = some a) :
    enter q id s now = settle a.queue id s a.lane now a.answer := by
  unfold knocks? at h
  split_ifs at h with hc
  obtain ⟨lane, hl, rfl⟩ := Option.map_eq_some_iff.mp h
  simp only [enter_of_passed hc.1 hc.2, hl]

theorem ask_of_asksAt {number : Nat} (h : asksAt? q id s now number = some a) :
    ask q id s number now = settle a.queue id s a.lane now a.answer := by
  obtain ⟨lane, hl, rfl⟩ := Option.map_eq_some_iff.mp h
  simp only [ask, hl]

/-- A step that puts a question consists of what follows from the answer. -/
theorem step_of_question (h : question? q id s now wake = some a) :
    step q id s now wake = settle a.queue id s a.lane now a.answer := by
  unfold question? at h
  split at h
  · next hp => simp only [step, hp, enter_of_knocks h]
  · next hp => simp only [step, hp, enter_of_knocks h]
  · next hp => simp only [step, hp, ask_of_asksAt h]
  · next hp => simp only [step, hp, ask_of_asksAt h]
  · simp at h

theorem lane?_enter_of_silent (h : knocks? q id s now = none) :
    (enter q id s now).2.lane? = none := by
  by_cases hc : s.terms.failure? (s.signals q) now = none ∧ q.gate.isOpen now
  · simp only [knocks?, if_pos hc, Option.map_eq_none_iff] at h
    simp only [enter_of_passed hc.1 hc.2, h]
    rfl
  · unfold enter
    split
    · rfl
    · next hf =>
      have hg : (q.gate.blockedUntil now).2 ≠ none := by
        intro hb
        exact hc ⟨hf, by simp [Gate.isOpen, hb]⟩
      obtain ⟨until_, hb⟩ := Option.ne_none_iff_exists'.mp hg
      simp only [hb]
      split <;> rfl

/-- A request comes into a line, or to a slot, by a question for the lane. -/
theorem mem_lane?_step {n : Nat} (h : n ∈ (step q id s now wake).2.lane?) :
    (step q id s now wake = (q, s)) ∨ ∃ a, question? q id s now wake = some a ∧ a.lane = n := by
  cases hq : question? q id s now wake with
  | some a =>
    rw [step_of_question hq] at h
    exact Or.inr ⟨a, rfl, (mem_lane?_settle h).symm⟩
  | none =>
    refine Or.inl ?_
    have hland (lane : Nat) (outcome : Outcome) : n ∉ (land q id s lane outcome now).2.lane? := by
      simp [lane?_land]
    have habort (e : ClientError) : n ∉ (abort q id s e now).2.lane? := by simp [lane?_abort]
    unfold step at h ⊢
    unfold question? at hq
    split at h
    · split at h <;> simp [lane?, finish] at h
    · next hp =>
      simp only [hp] at hq
      simp [lane?_enter_of_silent hq] at h
    · next hp =>
      simp only [hp] at hq
      simp [lane?_enter_of_silent hq] at h
    · next hp =>
      simp only [hp, asksAt?, Option.map_eq_none_iff] at hq
      simp [ask, hq, lane?] at h
    · next hp =>
      simp only [hp, asksAt?, Option.map_eq_none_iff] at hq
      simp [ask, hq, lane?] at h
    · exact absurd h (hland _ _)
    · exact absurd h (habort _)
    · split_ifs at h with hw
      · exact absurd h (habort _)
      · simp [hw]
    · split at h
      · split_ifs at h with hw
        · exact absurd h (habort _)
        · simp [hw]
      · rfl
    · rfl

/-- The request comes to the lane of its key and joins the line, or asks from the line in which it
stands. -/
theorem question_cases (h : question? q id s now wake = some a) :
    ∃ lane, a.queue.registry.lane? a.lane = some lane ∧
      ((a.queue = passed q s now ∧ a.lane = (q.registry.resolve s.key now).2 ∧
          a.answer = lane.arrive id s.terms (s.signals q) now) ∨
        (a.queue = q ∧ a.lane ∈ s.lane? ∧ a.answer = lane.ask id s.terms (s.signals q) now)) := by
  have hknock (h : knocks? q id s now = some a) :
      ∃ lane, a.queue.registry.lane? a.lane = some lane ∧ a.queue = passed q s now ∧
        a.lane = (q.registry.resolve s.key now).2 ∧
        a.answer = lane.arrive id s.terms (s.signals q) now := by
    unfold knocks? at h
    split_ifs at h
    obtain ⟨lane, hl, rfl⟩ := Option.map_eq_some_iff.mp h
    exact ⟨lane, hl, rfl, rfl, rfl⟩
  have hask {number : Nat} (h : asksAt? q id s now number = some a) :
      ∃ lane, a.queue.registry.lane? a.lane = some lane ∧ a.queue = q ∧ a.lane = number ∧
        a.answer = lane.ask id s.terms (s.signals q) now := by
    obtain ⟨lane, hl, rfl⟩ := Option.map_eq_some_iff.mp h
    exact ⟨lane, hl, rfl, rfl, rfl⟩
  unfold question? at h
  split at h
  · obtain ⟨lane, hl, hk⟩ := hknock h
    exact ⟨lane, hl, Or.inl hk⟩
  · obtain ⟨lane, hl, hk⟩ := hknock h
    exact ⟨lane, hl, Or.inl hk⟩
  · next hp =>
    obtain ⟨lane, hl, hq, hn, ha⟩ := hask h
    exact ⟨lane, hl, Or.inr ⟨hq, by simp [lane?, hp, hn], ha⟩⟩
  · next hp =>
    obtain ⟨lane, hl, hq, hn, ha⟩ := hask h
    exact ⟨lane, hl, Or.inr ⟨hq, by simp [lane?, hp, hn], ha⟩⟩
  · simp at h

/-- The answer is written into the queue in which the question is put. -/
theorem touches_of_question (h : question? q id s now wake = some a) :
    Queue.Touches now a.queue (step q id s now wake).1 := by
  rw [step_of_question h]
  obtain ⟨lane, hl, ⟨-, -, ha⟩ | ⟨-, -, ha⟩⟩ := question_cases h
  · exact touches_settle a.queue id s now hl (ha ▸ lane.evolves_arrive id _ _ now)
  · exact touches_settle a.queue id s now hl (ha ▸ lane.evolves_ask id _ _ now)

theorem granted_of_sending {n : Nat} (h : question? q id s now wake = some a)
    (hs : (step q id s now wake).2.phase = .sending n) : a.answer.2 = .granted := by
  rw [step_of_question h] at hs
  generalize a.answer = answer at hs ⊢
  obtain ⟨lane, place⟩ := answer
  cases place with
  | inLine => simp [settle] at hs
  | asleep t => simp [settle] at hs
  | granted => rfl
  | refused e => simp [settle, finish] at hs

/-- A request that starts to be sent has been granted a slot in the same step. -/
theorem question_of_sending {n : Nat} (ha : s.allows q id now wake = true)
    (hs : (step q id s now wake).2.phase = .sending n) :
    ∃ a, question? q id s now wake = some a ∧ a.lane = n ∧ a.answer.2 = .granted := by
  have hn : n ∈ (step q id s now wake).2.lane? := by simp [lane?, hs]
  rcases mem_lane?_step hn with hstay | ⟨a, hq, rfl⟩
  · have hp : s.phase = .sending n := by rwa [hstay] at hs
    have hno := not_sending_after_send hp ha
    simp [isSending, hs] at hno
  · exact ⟨a, hq, rfl, granted_of_sending hq hs⟩

end Submission

namespace Traffic

variable {x : Traffic} {e : Event}

inductive Becomes (x : Traffic) (e : Event) (id : Nat) : Submission → Prop
  | stays {s : Submission} (h : x.submissions id = some s) : Becomes x e id s
  | created {request : Request} (ha : e.act = .submit id request) (h : x.submissions id = none) :
      Becomes x e id (.create request e.time)
  | stepped {s : Submission} {wake : Wake} (ha : e.act = .wake id wake)
      (h : x.submissions id = some s) (hw : s.allows x.queue id e.time wake = true)
      (hq : (x.next e).queue = (s.step x.queue id e.time wake).1) :
      Becomes x e id (s.step x.queue id e.time wake).2
  | canceled {s : Submission} (ha : e.act = .cancel id) (h : x.submissions id = some s) :
      Becomes x e id s.cancel
  | abandoned {s : Submission} (ha : e.act = .abandon id) (h : x.submissions id = some s) :
      Becomes x e id (s.abandon x.queue id).2

theorem submissions_put_cases {id other : Nat} {next : Queue × Submission} {s : Submission}
    (h : (x.put id next).submissions other = some s) :
    other = id ∧ s = next.2 ∨ other ≠ id ∧ x.submissions other = some s := by
  by_cases hid : other = id
  · subst hid
    rw [submissions_put, Option.some.injEq] at h
    exact Or.inl ⟨rfl, h.symm⟩
  · simp only [put, if_neg hid] at h
    exact Or.inr ⟨hid, h⟩

theorem becomes_of_next {id : Nat} {s : Submission} (h : (x.next e).submissions id = some s) :
    x.Becomes e id s := by
  obtain ⟨now, act⟩ := e
  cases act with
  | submit other request =>
    cases ho : x.submissions other with
    | some old =>
      simp only [next, ho] at h
      exact .stays h
    | none =>
      simp only [next, ho] at h
      obtain ⟨rfl, rfl⟩ | ⟨-, h⟩ := submissions_put_cases h
      · exact .created rfl ho
      · exact .stays h
  | wake other wake =>
    cases ho : x.submissions other with
    | none =>
      simp only [next, ho] at h
      exact .stays h
    | some old =>
      by_cases hw : old.allows x.queue other now wake = true
      · have hn : x.next ⟨now, .wake other wake⟩ =
            x.put other (old.step x.queue other now wake) := by
          simp only [next, ho, hw, if_true]
        rw [hn] at h
        obtain ⟨rfl, rfl⟩ | ⟨-, h⟩ := submissions_put_cases h
        · exact .stepped rfl ho hw (by rw [hn, queue_put])
        · exact .stays h
      · simp only [next, ho, if_neg hw] at h
        exact .stays h
  | cancel other =>
    cases ho : x.submissions other with
    | none =>
      simp only [next, ho] at h
      exact .stays h
    | some old =>
      simp only [next, ho] at h
      obtain ⟨rfl, rfl⟩ | ⟨-, h⟩ := submissions_put_cases h
      · exact .canceled rfl ho
      · exact .stays h
  | abandon other =>
    cases ho : x.submissions other with
    | none =>
      simp only [next, ho] at h
      exact .stays h
    | some old =>
      simp only [next, ho] at h
      obtain ⟨rfl, rfl⟩ | ⟨-, h⟩ := submissions_put_cases h
      · exact .abandoned rfl ho
      · exact .stays h
  | close reason => exact .stays h
  | trip until_ => exact .stays h
  | look => exact .stays h
  | find key => exact .stays h
  | cleanup idle => exact .stays h

theorem isSome_put {id : Nat} (h : (x.submissions id).isSome) (other : Nat)
    (next : Queue × Submission) :
    ((x.put other next).submissions id).isSome := by
  by_cases hid : id = other
  · subst hid
    rw [submissions_put]
    rfl
  · simpa [put, hid] using h

theorem isSome_next {id : Nat} (h : (x.submissions id).isSome) (e : Event) :
    ((x.next e).submissions id).isSome := by
  obtain ⟨now, act⟩ := e
  unfold next
  cases act with
  | submit other request =>
    dsimp only
    split
    · exact isSome_put h other _
    · exact h
  | wake other wake =>
    dsimp only
    split
    · split_ifs
      · exact isSome_put h other _
      · exact h
    · exact h
  | cancel other =>
    dsimp only
    split
    · exact isSome_put h other _
    · exact h
  | abandon other =>
    dsimp only
    split
    · exact isSome_put h other _
    · exact h
  | _ => exact h

theorem becomes_next {id : Nat} {s : Submission} (h : x.submissions id = some s) (e : Event) :
    ∃ s', (x.next e).submissions id = some s' ∧ x.Becomes e id s' := by
  obtain ⟨s', hs'⟩ := Option.isSome_iff_exists.mp (isSome_next (Option.isSome_of_eq_some h) e)
  exact ⟨s', hs', becomes_of_next hs'⟩

/-- A request that nothing may wake stays what it is, unless it is canceled or abandoned. -/
theorem stays_of_not_allowed {id : Nat} {s : Submission} (h : x.submissions id = some s)
    (hw : ∀ wake, s.allows x.queue id e.time wake = false) (hc : e.act ≠ .cancel id)
    (ha : e.act ≠ .abandon id) : (x.next e).submissions id = some s := by
  obtain ⟨s', hs', hb⟩ := becomes_next h e
  cases hb with
  | stays ho => exact hs'.trans (ho.symm.trans h)
  | created _ ho => simp [ho] at h
  | stepped _ ho hallow _ =>
    obtain rfl := Option.some.inj (h.symm.trans ho)
    simp [hw] at hallow
  | canceled hact => exact absurd hact hc
  | abandoned hact => exact absurd hact ha

/-- The request gets a slot of the lane, whether it is sent then or gives the slot back. -/
def Admits (x : Traffic) (e : Event) (s : Submission) (lane : Nat) : Prop :=
  ∃ id wake a, e.act = .wake id wake ∧ x.submissions id = some s ∧
    s.allows x.queue id e.time wake = true ∧
    s.question? x.queue id e.time wake = some a ∧ a.lane = lane ∧ a.answer.2 = .granted

theorem Launches.admits (h : x.Launches e) : ∃ s lane, x.Admits e s lane := by
  obtain ⟨id, wake, s, he, hs, ha, hl⟩ := h
  obtain ⟨n, hp⟩ := Submission.exists_lane_of_isSending hl
  obtain ⟨a, hq, hn, hg⟩ := Submission.question_of_sending ha hp
  exact ⟨s, n, id, wake, a, he, hs, ha, hq, hn, hg⟩

end Traffic

end Parley.Rest
