import Parley.Proofs.Rest.Deadlines

/-! Requests that must not wait for their bucket, because their policy forbids it or because it
refills too late for them. They are answered at once if nobody stands in line. Behind others they
stand in line like everybody else, and are asked what they want when they come to its head only. -/
namespace Parley.Rest

namespace Bucket

variable {b : Bucket} {now reset : Instant}

def refillsAt? (b : Bucket) (now : Instant) : Option Instant :=
  match (b.tryAdmit now).2 with
  | .granted => none
  | .waitUntil reset => some reset

theorem refillsAt?_eq_none : b.refillsAt? now = none ↔ b.grants now := by
  unfold refillsAt? grants
  cases (b.tryAdmit now).2 <;> simp

theorem refillsAt?_eq_some :
    b.refillsAt? now = some reset ↔ (b.tryAdmit now).2 = .waitUntil reset := by
  unfold refillsAt?
  cases (b.tryAdmit now).2 <;> simp

@[simp] theorem hash_refill (b : Bucket) (now : Instant) : (b.refill now).hash = b.hash := by
  unfold refill
  split
  · split_ifs <;> rfl
  · rfl

@[simp] theorem label_tryAdmit (b : Bucket) (now : Instant) :
    (b.tryAdmit now).1.label = b.label := by
  have hh : (b.tryAdmit now).1.hash = b.hash := by
    unfold tryAdmit
    dsimp only
    split_ifs <;> simp
  simp only [label, hh, key_tryAdmit]

end Bucket

namespace Lane

variable {l : Lane} {id : Nat} {terms : Terms} {signals : Signals} {now : Instant}

/-- The request may not wait for a slot: its policy forbids that, or the bucket refills after its
deadline. -/
def Hurries (l : Lane) (terms : Terms) (now : Instant) : Prop :=
  terms.retry.rateLimits = false ∨ ∃ reset ∈ l.bucket.refillsAt? now, terms.deadline < reset

def answerAtOnce (l : Lane) (now : Instant) : Place :=
  match l.bucket.refillsAt? now with
  | none => .granted
  | some reset => .refused (.rateLimited l.bucket.label (some (reset.since now)))

theorem Hurries.waitFailure? (h : l.Hurries terms now) (hf : terms.failure? signals now = none)
    {reset : Instant} (hr : l.bucket.refillsAt? now = some reset) (label : String) :
    terms.waitFailure? signals label now reset =
      some (.rateLimited label (some (reset.since now))) := by
  have hno : (!terms.retry.rateLimits || decide (terms.deadline < reset)) = true := by
    obtain hp | ⟨reset', hr', hlt⟩ := h
    · simp [hp]
    · obtain rfl : reset = reset' := Option.some.inj (hr.symm.trans hr')
      simp [hlt]
  simp only [Terms.waitFailure?, hf, hno, if_true]

theorem ask_at_once (h : l.Hurries terms now) (hf : terms.failure? signals now = none) :
    (l.ask id terms signals now).2 = l.answerAtOnce now := by
  unfold ask answerAtOnce
  simp only [hf]
  cases hr : l.bucket.refillsAt? now with
  | none =>
    have hg : (l.bucket.tryAdmit now).2 = .granted := Bucket.refillsAt?_eq_none.mp hr
    split
    · rfl
    · next ha => simp [ha] at hg
  | some reset =>
    have hw := Bucket.refillsAt?_eq_some.mp hr
    split
    · next ha => simp [ha] at hw
    · next bucket reset' ha =>
      obtain rfl : reset' = reset := by simpa [ha] using hw
      have hl : bucket.label = l.bucket.label := by
        rw [← Bucket.label_tryAdmit l.bucket now, ha]
      simp only [h.waitFailure? hf hr, hl]

theorem isHead_append (hid : id ∉ l.line) :
    isHead { l with line := l.line ++ [id] } id = l.line.isEmpty := by
  cases hl : l.line with
  | nil => simp [isHead]
  | cons first rest =>
    have hne : first ≠ id := fun he => hid (by simp [hl, he])
    simp [isHead, hne]

theorem arrive_behind (hid : id ∉ l.line) (hf : terms.failure? signals now = none)
    (hl : l.line ≠ []) :
    l.arrive id terms signals now = ({ l with line := l.line ++ [id] }, .inLine) := by
  have hh : isHead { l with line := l.line ++ [id] } id = false := by
    rw [isHead_append hid]
    simpa using hl
  simp [arrive, hf, hh]

theorem arrive_first (hf : terms.failure? signals now = none) (hl : l.line = []) :
    l.arrive id terms signals now = ask { l with line := [id] } id terms signals now := by
  simp [arrive, hf, hl, isHead]

end Lane

namespace Traffic

variable {x : Traffic} {e : Event} {later : List Event} {id n : Nat} {s : Submission}

/-- Whenever one of the events comes, the request waits and cannot go on without the transport; and
nobody gives it up. -/
def KeepsWaiting (id : Nat) : Traffic → List Event → Prop
  | _, [] => True
  | x, e :: later =>
    (∀ s, x.submissions id = some s → s.Waits x.queue id e.time) ∧ e.act ≠ .cancel id ∧
      e.act ≠ .abandon id ∧ KeepsWaiting id (x.next e) later

theorem stays_in_line (hs : x.submissions id = some s) (hp : s.phase = .inLine n)
    (hw : s.Waits x.queue id e.time) (hc : e.act ≠ .cancel id) (ha : e.act ≠ .abandon id) :
    (x.next e).submissions id = some s := by
  refine stays_of_not_allowed hs ?_ hc ha
  intro wake
  rw [Bool.eq_false_iff]
  intro hallow
  obtain ⟨outcome, rfl⟩ := hw.eq_answered hallow
  simp [Submission.allows, hp] at hallow

theorem stays_in_line_run (hs : x.submissions id = some s) (hp : s.phase = .inLine n)
    (hk : KeepsWaiting id x later) : (x.run later).submissions id = some s := by
  induction later generalizing x with
  | nil => exact hs
  | cons e later ih =>
    obtain ⟨hw, hc, ha, hrest⟩ := hk
    exact ih (stays_in_line hs hp (hw s hs) hc ha) hrest

theorem step_deadline (q : Queue) (hp : s.phase = .inLine n) (t : Instant) :
    (s.step q id t .deadline).2.phase = .done (.error .timeout) := by
  simp [Submission.step, Submission.abort, hp, Submission.finish]

end Traffic

namespace Lane

/-- A request that must not wait is answered at once exactly if nobody stands in line, whatever the
bucket and the line are. Behind others it joins the line, where it stays while others come and go:
it ends with a timeout when its deadline comes, or is told what it should have been told at once
when it is asked at the head. -/
theorem answered_at_once_iff (l : Lane) {id : Nat} (hid : id ∉ l.line) {terms : Terms}
    {signals : Signals} {now : Instant} (hf : terms.failure? signals now = none)
    (hh : l.Hurries terms now) :
    ((l.arrive id terms signals now).2 = l.answerAtOnce now ↔ l.line = []) ∧
    (l.line ≠ [] →
      l.arrive id terms signals now = ({ l with line := l.line ++ [id] }, .inLine) ∧
      ∀ (x : Traffic) (s : Submission) (n : Nat) (later : List Traffic.Event),
        x.submissions id = some s → s.phase = .inLine n → s.terms = terms →
        x.KeepsWaiting id later →
          (x.run later).submissions id = some s ∧
          (∀ t, terms.deadline ≤ t →
            s.allows (x.run later).queue id t .deadline = true ∧
            (s.step (x.run later).queue id t .deadline).2.phase = .done (.error .timeout)) ∧
          ∀ t l', (x.run later).queue.registry.lane? n = some l' →
            s.terms.failure? (s.signals (x.run later).queue) t = none → l'.Hurries s.terms t →
            (l'.ask id s.terms (s.signals (x.run later).queue) t).2 = l'.answerAtOnce t) := by
  refine ⟨⟨?_, ?_⟩, ?_⟩
  · intro h
    by_contra hl
    rw [arrive_behind hid hf hl] at h
    unfold answerAtOnce at h
    split at h <;> simp at h
  · intro hl
    have hsame : Hurries { l with line := [id] } terms now := hh
    rw [arrive_first hf hl, ask_at_once hsame hf]
    rfl
  · intro hl
    refine ⟨arrive_behind hid hf hl, ?_⟩
    intro x s n later hs hp ht hk
    refine ⟨Traffic.stays_in_line_run hs hp hk, ?_, ?_⟩
    · intro t hd
      refine ⟨?_, Traffic.step_deadline _ hp t⟩
      simpa [Submission.allows, hp, ht] using hd
    · intro t l' _ hf' hh'
      exact ask_at_once hh' hf'

/-- The only slot of a lane is taken for five seconds, and a request sleeps until then. -/
def behindSleeper : List Traffic.Event :=
  let get := Traffic.plainRequest .get "/users"
  let taken : Response :=
    ⟨200, { RateLimit.silent with
      limit := some 1, remaining := some 0, resetAfter := some (.ofSecs 5) }, []⟩
  Traffic.sendOf 0 get ++ [⟨⟨0⟩, .wake 0 (.answered (.ok taken))⟩] ++ Traffic.sendOf 1 get

def hurriedThird : List Traffic.Event :=
  let get := Traffic.plainRequest .get "/users"
  behindSleeper ++ Traffic.sendOf 2 { get with options := ⟨.ofSecs 15, .never⟩ }

/-- It stands in line while somebody reads the gate, and times out at last. -/
theorem hurriedThird_times_out :
    let x := (Traffic.create (.ofMillis 750)).run hurriedThird
    let terms : Terms := ⟨.ofMillis 15000, .never⟩
    ∃ l s, ((Traffic.create (.ofMillis 750)).run behindSleeper).queue.registry.lane? 0 = some l ∧
      2 ∉ l.line ∧ terms.failure? .none ⟨0⟩ = none ∧ l.Hurries terms ⟨0⟩ ∧
      (l.arrive 2 terms .none ⟨0⟩).2 = .inLine ∧
      x.submissions 2 = some s ∧ s.phase = .inLine 0 ∧ s.terms = terms ∧
      x.KeepsWaiting 2 [⟨.ofMillis 4000, .look⟩] ∧
      (s.step (x.run [⟨.ofMillis 4000, .look⟩]).queue 2 (.ofMillis 15000) .deadline).2.phase =
        .done (.error .timeout) := by
  intro x terms
  have hf : terms.failure? .none ⟨0⟩ = none := by decide
  have hk : x.KeepsWaiting 2 [⟨.ofMillis 4000, .look⟩] := by
    refine ⟨?_, by simp, by simp, trivial⟩
    intro s hs
    cases hs
    exact ⟨rfl, rfl, rfl, fun u hu => (by cases hu; decide), fun lane hl => (by cases hl; rfl)⟩
  obtain ⟨l, hl, hline⟩ :
      ∃ l, ((Traffic.create (.ofMillis 750)).run behindSleeper).queue.registry.lane? 0 = some l ∧
        l.line = [1] := ⟨_, rfl, rfl⟩
  have hid : 2 ∉ l.line := by simp [hline]
  have hh : l.Hurries terms ⟨0⟩ := Or.inl rfl
  obtain ⟨harrive, hlater⟩ := (answered_at_once_iff l hid hf hh).2 (by simp [hline])
  obtain ⟨-, hover, -⟩ := hlater x _ 0 [⟨.ofMillis 4000, .look⟩] rfl rfl rfl hk
  obtain ⟨-, htimeout⟩ := hover (.ofMillis 15000) (by decide)
  exact ⟨l, _, hl, hid, hf, hh, by rw [harrive], rfl, rfl, rfl, hk, htimeout⟩

/-- It should have been refused at once, and so should one whose deadline comes after a second. Both
would be if nobody slept there. -/
theorem hurriedThird_not_refused :
    ∃ l, ((Traffic.create (.ofMillis 750)).run behindSleeper).queue.registry.lane? 0 = some l ∧
      l.answerAtOnce ⟨0⟩ = .refused (.rateLimited "GET /users" (some (.ofSecs 5))) ∧
      ∀ terms ∈ [(⟨.ofMillis 15000, .never⟩ : Terms), ⟨.ofMillis 1000, .standard⟩],
        l.Hurries terms ⟨0⟩ ∧ (l.arrive 2 terms .none ⟨0⟩).2 = .inLine ∧
          (({ l with line := [] } : Lane).arrive 2 terms .none ⟨0⟩).2 = l.answerAtOnce ⟨0⟩ := by
  refine ⟨_, rfl, rfl, ?_⟩
  intro terms ht
  simp only [List.mem_cons, List.not_mem_nil, or_false] at ht
  rcases ht with rfl | rfl
  · exact ⟨Or.inl rfl, rfl, rfl⟩
  · exact ⟨Or.inr ⟨_, rfl, by decide⟩, rfl, rfl⟩

end Lane

end Parley.Rest
