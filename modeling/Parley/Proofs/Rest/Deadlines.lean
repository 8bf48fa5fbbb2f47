import Parley.Proofs.Rest.Admissions

/-! The deadline of a request bounds its whole way through a queue: no send begins when it has come,
no limit that ends later is waited out, and a request that is not with the transport is over. -/
namespace Parley.Rest

namespace Submission

variable {q : Queue} {id : Nat} {s : Submission} {now : Instant} {wake : Wake}

/-- Whatever becomes of the request now lies with the transport, or nothing does. -/
def isSettled (s : Submission) : Bool := s.isOver || s.isSending

theorem isSettled_eq_true : s.isSettled = true ↔ s.isOver = true ∨ s.isSending = true := by
  simp [isSettled]

theorem isOver_false_of_isSending (h : s.isSending = true) : s.isOver = false := by
  obtain ⟨lane, hp⟩ := exists_lane_of_isSending h
  simp [isOver, hp]

theorem before_deadline_of_isSending (ha : s.allows q id now wake = true)
    (hs : (step q id s now wake).2.isSending = true) : now < s.terms.deadline := by
  have ho := isOver_false_of_isSending hs
  have hstep := stepped_step ha
  generalize (step q id s now wake).2 = s' at hs ho hstep
  cases hstep with
  | comes hp => simp [isSending] at hs
  | goesOn _ hg => exact (Terms.failure?_eq_none.mp (hg.unless_over ho).1).2.2
  | lands _ hl =>
    obtain hover | ⟨-, hlt⟩ := hl.over_or_again
    · simp [hover] at ho
    · exact hlt

/-- When the deadline has come, a request that the queue has seen is over with its next step. -/
theorem isOver_step_of_late (hd : s.terms.deadline ≤ now) (hp : s.phase ≠ .submitted)
    (ha : s.allows q id now wake = true) : (step q id s now wake).2.isOver = true := by
  have hstep := stepped_step ha
  generalize (step q id s now wake).2 = s' at hstep ⊢
  cases hstep with
  | comes h => exact absurd h hp
  | goesOn _ hg =>
    by_contra ho
    have hlt := (Terms.failure?_eq_none.mp (hg.unless_over (by simpa using ho)).1).2.2
    exact Instant.not_le_of_lt hlt hd
  | lands _ hl =>
    obtain hover | ⟨-, hlt⟩ := hl.over_or_again
    · exact hover
    · exact absurd hd (Instant.not_le_of_lt hlt)

theorem limitEnd?_of_isOver (h : s.isOver = true) : s.limitEnd? = none := by
  unfold isOver at h
  unfold limitEnd?
  cases hp : s.phase <;> simp_all

theorem limitEnd_step (ha : s.allows q id now wake = true) :
    ∀ u ∈ (step q id s now wake).2.limitEnd?, u ≤ (step q id s now wake).2.terms.deadline := by
  have hstep := stepped_step ha
  rw [hstep.alike.terms]
  generalize (step q id s now wake).2 = s' at hstep ⊢
  cases hstep with
  | comes hp => simp [limitEnd?]
  | goesOn _ hg =>
    intro u hu
    have ho : s'.isOver = false := by
      by_contra ho
      simp [limitEnd?_of_isOver (by simpa using ho)] at hu
    exact (hg.unless_over ho).2 u hu
  | lands _ hl =>
    obtain hover | ⟨hp, -⟩ := hl.over_or_again
    · simp [limitEnd?_of_isOver hover]
    · simp [limitEnd?, hp]

/-- When the deadline has come, every request that is not settled can go on by itself. -/
theorem allows_of_late (hd : s.terms.deadline ≤ now) (hl : ∀ u ∈ s.limitEnd?, u ≤ s.terms.deadline)
    (hs : s.isSettled = false) :
    ∃ wake, s.allows q id now wake = true ∧ ∀ outcome, wake ≠ .answered outcome := by
  simp only [isSettled, Bool.or_eq_false_iff] at hs
  cases hp : s.phase with
  | submitted => exact ⟨.ready, by simp [allows, hp], by simp⟩
  | entering => exact ⟨.ready, by simp [allows, hp], by simp⟩
  | atGate until_ =>
    have hu : until_ ≤ now := Instant.le_trans (hl until_ (by simp [limitEnd?, hp])) hd
    exact ⟨.timer, by simpa [allows, hp] using hu, by simp⟩
  | asleep lane until_ =>
    have hu : until_ ≤ now := Instant.le_trans (hl until_ (by simp [limitEnd?, hp])) hd
    exact ⟨.timer, by simpa [allows, hp] using hu, by simp⟩
  | inLine lane => exact ⟨.deadline, by simpa [allows, hp] using hd, by simp⟩
  | sending lane => simp [isSending, hp] at hs
  | done result => simp [isOver, hp] at hs
  | lost => simp [isOver, hp] at hs

/-- The request waits, and nothing but the transport lets it go on at `now`. -/
structure Waits (q : Queue) (id : Nat) (s : Submission) (now : Instant) : Prop where
  waiting : s.isWaiting = true
  not_canceled : s.canceled = false
  is_open : q.closed = none
  not_due : ∀ u ∈ s.wakesAt?, now < u
  not_head : ∀ lane, s.phase = .inLine lane → (q.registry.lane? lane).any (·.isHead id) = false

theorem Waits.eq_answered (h : Waits q id s now) (ha : s.allows q id now wake = true) :
    ∃ outcome, wake = .answered outcome := by
  obtain ⟨hw, hc, ho, hd, hh⟩ := h
  have hnot {u : Instant} (hu : u ∈ s.wakesAt?) : ¬ u ≤ now := Instant.not_le_of_lt (hd u hu)
  cases wake with
  | answered outcome => exact ⟨outcome, rfl⟩
  | canceled => simp [allows, hc] at ha
  | closed => simp [allows, Queue.isClosed, ho] at ha
  | ready =>
    simp only [allows, Bool.or_eq_true, beq_iff_eq] at ha
    unfold isWaiting at hw
    rcases ha with hp | hp <;> simp [hp] at hw
  | turn =>
    cases hp : s.phase with
    | inLine lane => simp [allows, hp, hh lane hp] at ha
    | _ => simp [allows, hp] at ha
  | timer =>
    cases hp : s.phase with
    | atGate u => simp [allows, hp, hnot (u := u) (by simp [wakesAt?, hp])] at ha
    | asleep lane u => simp [allows, hp, hnot (u := u) (by simp [wakesAt?, hp])] at ha
    | _ => simp [allows, hp] at ha
  | deadline =>
    cases hp : s.phase with
    | inLine lane =>
      simp [allows, hp, hnot (u := s.terms.deadline) (by simp [wakesAt?, hp])] at ha
    | _ => simp [allows, hp] at ha

end Submission

namespace Traffic

variable {x : Traffic} {e : Event} {events : List Event} {id : Nat} {s : Submission}

/-- A request of a run was there before, with the same terms, or comes in at one of the events. -/
theorem arrival_of_run (hs : (x.run events).submissions id = some s) :
    (∃ old, x.submissions id = some old ∧ s.request = old.request ∧ s.terms = old.terms) ∨
      ∃ before e after, events = before ++ e :: after ∧ (x.run before).submissions id = none ∧
        e.act = .submit id s.request ∧ s.terms = (Submission.create s.request e.time).terms := by
  induction events generalizing x with
  | nil => exact Or.inl ⟨s, hs, rfl, rfl⟩
  | cons e events ih =>
    obtain ⟨next, hnext, hr, ht⟩ | ⟨before, d, after, rfl, hnone, ha, ht⟩ := ih hs
    · cases becomes_of_next hnext with
      | stays ho => exact Or.inl ⟨next, ho, hr, ht⟩
      | @created request ha ho =>
        obtain rfl : s.request = request := hr
        exact Or.inr ⟨[], e, events, rfl, ho, ha, ht⟩
      | @stepped old wake _ ho hw _ =>
        have hk := (Submission.stepped_step hw).alike
        exact Or.inl ⟨old, ho, hr.trans hk.request, ht.trans hk.terms⟩
      | @canceled old _ ho => exact Or.inl ⟨old, ho, hr, ht⟩
      | @abandoned old _ ho =>
        have hk := old.alike_abandon x.queue id
        exact Or.inl ⟨old, ho, hr.trans hk.request, ht.trans hk.terms⟩
    · exact Or.inr ⟨e :: before, d, after, rfl, hnone, ha, ht⟩

/-- No request waits out a limit that ends after its deadline. -/
def Timely (x : Traffic) : Prop :=
  ∀ id s, x.submissions id = some s → ∀ u ∈ s.limitEnd?, u ≤ s.terms.deadline

theorem Timely.next (h : x.Timely) (e : Event) : (x.next e).Timely := by
  intro id s hs
  cases becomes_of_next hs with
  | stays ho => exact h id s ho
  | created => simp [Submission.limitEnd?, Submission.create]
  | @stepped old wake _ ho hw _ => exact Submission.limitEnd_step hw
  | @canceled old _ ho => exact h id old ho
  | @abandoned old _ ho =>
    have hover := Submission.isOver_abandon x.queue id old
    simp [Submission.limitEnd?_of_isOver hover]

theorem Timely.run (h : x.Timely) (events : List Event) : (x.run events).Timely := by
  induction events generalizing x with
  | nil => exact h
  | cons e events ih => exact ih (h.next e)

theorem timely_create (backoff : Duration) : (create backoff).Timely := by
  intro id s hs
  simp [create] at hs

/-- At `t` nobody can go on without an answer of the transport. -/
def Idle (x : Traffic) (t : Instant) : Prop :=
  ∀ id s wake, x.submissions id = some s → s.allows x.queue id t wake = true →
    ∃ outcome, wake = .answered outcome

/-- The events of a run that begins at `now` and has come to `finish` are in order, and whenever the
timer ticks, everybody goes on who can, before the clock does. -/
def Prompt (ticks : Instant → Prop) (finish : Instant) : Traffic → Instant → List Event → Prop
  | x, now, [] => ∀ t, ticks t → now ≤ t → t < finish → x.Idle t
  | x, now, e :: events =>
    now ≤ e.time ∧ (∀ t, ticks t → now ≤ t → t < e.time → x.Idle t) ∧
      Prompt ticks finish (x.next e) e.time events

variable {ticks : Instant → Prop} {now t finish : Instant}

theorem Prompt.le_time (h : Prompt ticks finish x now events) : ∀ e ∈ events, now ≤ e.time := by
  induction events generalizing x now with
  | nil => simp
  | cons d events ih =>
    intro e he
    rcases List.mem_cons.mp he with rfl | he
    · exact h.1
    · exact Instant.le_trans h.1 (ih h.2.2 e he)

theorem Idle.isSettled (h : x.Idle t) (ht : x.Timely) (hs : x.submissions id = some s)
    (hd : s.terms.deadline ≤ t) : s.isSettled = true := by
  by_contra hno
  obtain ⟨wake, ha, hw⟩ :
      ∃ wake, s.allows x.queue id t wake = true ∧ ∀ outcome, wake ≠ .answered outcome :=
    Submission.allows_of_late hd (ht id s hs) (by simpa using hno)
  obtain ⟨outcome, rfl⟩ := h id s wake hs ha
  exact hw outcome rfl

/-- A settled request stays settled when its deadline is over. -/
theorem isSettled_next (hs : x.submissions id = some s) (hset : s.isSettled = true)
    (hd : s.terms.deadline ≤ e.time) :
    ∃ s', (x.next e).submissions id = some s' ∧ s'.isSettled = true := by
  obtain ⟨s', hs', hb⟩ := becomes_next hs e
  refine ⟨s', hs', ?_⟩
  cases hb with
  | stays ho =>
    obtain rfl := Option.some.inj (hs.symm.trans ho)
    exact hset
  | created _ ho => simp [ho] at hs
  | stepped _ ho hw _ =>
    obtain rfl := Option.some.inj (hs.symm.trans ho)
    have hp : s.phase ≠ .submitted := by
      intro hp
      simp [Submission.isSettled, Submission.isOver, Submission.isSending, hp] at hset
    have hover := Submission.isOver_step_of_late hd hp hw
    exact Submission.isSettled_eq_true.mpr (Or.inl hover)
  | canceled _ ho =>
    obtain rfl := Option.some.inj (hs.symm.trans ho)
    exact hset
  | abandoned _ ho =>
    obtain rfl := Option.some.inj (hs.symm.trans ho)
    have hover := Submission.isOver_abandon x.queue id s
    exact Submission.isSettled_eq_true.mpr (Or.inl hover)

/-- A request whose deadline is over before the first event has been there from the beginning. -/
theorem there_of_late (hs : (x.run events).submissions id = some s) (hd : s.terms.deadline ≤ t)
    (ht : ∀ e ∈ events, t < e.time) :
    ∃ old, x.submissions id = some old ∧ old.terms = s.terms := by
  obtain ⟨old, ho, -, hterms⟩ | ⟨before, e, after, rfl, -, -, hterms⟩ := arrival_of_run hs
  · exact ⟨old, ho, hterms.symm⟩
  · have hcome : e.time ≤ s.terms.deadline := by
      rw [hterms]
      exact Nat.le_add_right e.time.nanos _
    have hlt : t < e.time := ht e (by simp)
    exact absurd (Instant.le_trans hcome hd) (Instant.not_le_of_lt hlt)

theorem Prompt.first_le (h : Prompt ticks finish x now (e :: events)) :
    ∀ d ∈ e :: events, e.time ≤ d.time := by
  intro d hd
  rcases List.mem_cons.mp hd with rfl | hd
  · exact Nat.le_refl d.time.nanos
  · exact h.2.2.le_time d hd

/-- Once a tick has passed at which its deadline was over, a request is settled. The induction is on
the run; what is known of a state later than the tick is that the request is settled in it. -/
theorem isSettled_of_prompt (hp : Prompt ticks finish x now events) (ht : x.Timely)
    (hs : (x.run events).submissions id = some s) (htick : ticks t) (hd : s.terms.deadline ≤ t)
    (hf : t < finish)
    (hx : t < now → ∃ old, x.submissions id = some old ∧ old.isSettled = true) :
    s.isSettled = true := by
  induction events generalizing x now with
  | nil =>
    by_cases hn : t < now
    · obtain ⟨old, ho, hset⟩ := hx hn
      obtain rfl := Option.some.inj (hs.symm.trans ho)
      exact hset
    · exact (hp t htick (Instant.le_of_not_lt hn) hf).isSettled ht hs hd
  | cons e events ih =>
    refine ih hp.2.2 (ht.next e) hs ?_
    intro he
    obtain ⟨old, ho, hterms⟩ := there_of_late (x := x) hs hd fun d hd =>
      Instant.lt_of_lt_of_le he (hp.first_le d hd)
    have hold : old.terms.deadline ≤ t := hterms ▸ hd
    have hset : old.isSettled = true := by
      by_cases hn : t < now
      · obtain ⟨old', ho', hset⟩ := hx hn
        obtain rfl := Option.some.inj (ho.symm.trans ho')
        exact hset
      · exact (hp.2.1 t htick (Instant.le_of_not_lt hn) he).isSettled ht ho hold
    exact isSettled_next ho hset (Instant.le_trans hold (Nat.le_of_lt he))

/-- Every request keeps the deadline that it has come in with. Whatever others do, no send of the
request begins when its deadline has come, and it waits out no limit that ends later. If everybody
is woken promptly, then after the first tick of the timer at or past the deadline the request is
over, or it is still in a send that began before. -/
theorem deadline_bounds_request (backoff : Duration) (events : List Event) {id : Nat}
    {s : Submission} (hs : ((create backoff).run events).submissions id = some s) :
    let x := (create backoff).run events
    (∃ before e after, events = before ++ e :: after ∧
      ((create backoff).run before).submissions id = none ∧ e.act = .submit id s.request ∧
      s.terms.deadline = e.time.plus s.request.options.timeout) ∧
    (∀ now wake, s.allows x.queue id now wake = true →
      (s.step x.queue id now wake).2.isSending = true → now < s.terms.deadline) ∧
    (∀ u ∈ s.limitEnd?, u ≤ s.terms.deadline) ∧
    ∀ ticks start finish t, Prompt ticks finish (create backoff) start events →
      ticks t → s.terms.deadline ≤ t → t < finish → s.isOver = true ∨ s.isSending = true := by
  intro x
  refine ⟨?_, ?_, ?_, ?_⟩
  · obtain ⟨old, ho, -⟩ | ⟨before, e, after, he, hnone, ha, ht⟩ := arrival_of_run hs
    · simp [create] at ho
    · exact ⟨before, e, after, he, hnone, ha, by rw [ht]; rfl⟩
  · intro now wake ha hsend
    exact Submission.before_deadline_of_isSending ha hsend
  · exact (timely_create backoff).run events id s hs
  · intro ticks start finish t hp htick hd hf
    refine Submission.isSettled_eq_true.mp ?_
    refine isSettled_of_prompt hp (timely_create backoff) hs htick hd hf ?_
    intro hstart
    obtain ⟨old, ho, -⟩ := there_of_late hs hd fun e he =>
      Instant.lt_of_lt_of_le hstart (hp.le_time e he)
    simp [create] at ho

theorem idle_of_waits (h : ∀ id s, x.submissions id = some s →
    s.isOver = true ∨ s.Waits x.queue id t) : x.Idle t := by
  intro id s wake hs ha
  obtain ho | hw := h id s hs
  · simp [Submission.not_allows_of_isOver ho] at ha
  · exact hw.eq_answered ha

/-- A request is with the transport, one behind it sleeps until the backoff of 750 ms is over, and a
third one, which stands behind both, has half a second. -/
def thirdInLine : List Event :=
  let get := plainRequest .get "/users"
  sendOf 0 get ++ sendOf 1 get ++ sendOf 2 { get with options := ⟨.ofMillis 500, .standard⟩ }

theorem mem_thirdInLine (later : List Event)
    (hl : ∀ e ∈ later, ∀ id request, e.act ≠ .submit id request)
    (hs : ((create (.ofMillis 750)).run (thirdInLine ++ later)).submissions id = some s) :
    id = 0 ∨ id = 1 ∨ id = 2 := by
  obtain ⟨old, ho, -⟩ | ⟨before, e, after, he, -, ha, -⟩ := arrival_of_run hs
  · simp [create] at ho
  · have hm : e ∈ thirdInLine ++ later := by simp [he]
    rcases List.mem_append.mp hm with hm | hm
    · simp only [thirdInLine, sendOf, List.cons_append, List.nil_append, List.mem_cons,
        List.not_mem_nil, or_false] at hm
      rcases hm with rfl | rfl | rfl | rfl | rfl | rfl | rfl | rfl | rfl <;> simp_all
    · exact absurd ha (hl e hm id _)

def thirdGivesUp : List Event := thirdInLine ++ [⟨.ofMillis 500, .wake 2 .deadline⟩]

theorem idle_of_thirdInLine (ht : t < .ofMillis 500) :
    ((create (.ofMillis 750)).run thirdInLine).Idle t := by
  have hlt : t < .ofMillis 750 := Nat.lt_trans ht (by decide)
  apply idle_of_waits
  intro id s hs
  refine Or.inr ?_
  obtain rfl | rfl | rfl := mem_thirdInLine [] (by simp) hs
  · cases hs
    exact ⟨rfl, rfl, rfl, fun u hu => (by cases hu), fun lane hl => (by cases hl)⟩
  · cases hs
    exact ⟨rfl, rfl, rfl, fun u hu => (by cases hu; exact hlt), fun lane hl => (by cases hl)⟩
  · cases hs
    exact ⟨rfl, rfl, rfl, fun u hu => (by cases hu; exact ht), fun lane hl => (by cases hl; rfl)⟩

theorem idle_of_thirdGivesUp (ht : t < .ofMillis 700) :
    ((create (.ofMillis 750)).run thirdGivesUp).Idle t := by
  have hlt : t < .ofMillis 750 := Nat.lt_trans ht (by decide)
  apply idle_of_waits
  intro id s hs
  obtain rfl | rfl | rfl := mem_thirdInLine _ (by simp) hs
  · cases hs
    exact Or.inr ⟨rfl, rfl, rfl, fun u hu => (by cases hu), fun lane hl => (by cases hl)⟩
  · cases hs
    exact Or.inr ⟨rfl, rfl, rfl, fun u hu => (by cases hu; exact hlt), fun lane hl => (by cases hl)⟩
  · cases hs
    exact Or.inl rfl

theorem prompt_thirdGivesUp :
    Prompt (fun t => ∃ ms, t = .ofMillis ms) (.ofMillis 700) (create (.ofMillis 750)) ⟨0⟩
      thirdGivesUp := by
  have hnow {x : Traffic} : ∀ t, (∃ ms, t = Instant.ofMillis ms) → (⟨0⟩ : Instant) ≤ t →
      t < (⟨0⟩ : Instant) → x.Idle t := by
    intro t _ _ ht
    exact absurd ht (Nat.not_lt_zero t.nanos)
  have hle : (⟨0⟩ : Instant) ≤ ⟨0⟩ := Nat.le_refl 0
  refine ⟨hle, hnow, hle, hnow, hle, hnow, hle, hnow, hle, hnow, hle, hnow, hle, hnow, hle, hnow,
    hle, hnow, by decide, ?_, ?_⟩
  · intro t _ _ ht
    exact idle_of_thirdInLine ht
  · intro t _ _ ht
    exact idle_of_thirdGivesUp ht

theorem thirdGivesUp_in_time :
    let x := (create (.ofMillis 750)).run thirdGivesUp
    ∃ s, x.submissions 2 = some s ∧ s.terms.deadline = .ofMillis 500 ∧
      Prompt (fun t => ∃ ms, t = .ofMillis ms) (.ofMillis 700) (create (.ofMillis 750)) ⟨0⟩
        thirdGivesUp ∧
      (s.isOver = true ∨ s.isSending = true) ∧ s.phase = .done (.error .timeout) := by
  intro x
  obtain ⟨-, -, -, hover⟩ := deadline_bounds_request (.ofMillis 750) thirdGivesUp
    (show x.submissions 2 = some _ from rfl)
  have hd : (Instant.ofMillis 500) ≤ .ofMillis 500 := by decide
  have hdone := hover _ _ _ (.ofMillis 500) prompt_thirdGivesUp ⟨500, rfl⟩ hd (by decide)
  exact ⟨_, rfl, rfl, prompt_thirdGivesUp, hdone, rfl⟩

end Traffic

end Parley.Rest
