import Parley.Proofs.Rest.Redirects

/-! Lanes never go away, and a request that stands in a line or has a slot does so in a lane that is
there. -/
namespace Parley.Rest

namespace Queue

variable {q q' : Queue} {now : Instant} {number : Nat} {key : BucketKey}

theorem Edit.keeps_key (h : Edit now q q') (hw : q.registry.WellFormed)
    (hk : q.registry.keyOf? number = some key) : q'.registry.keyOf? number = some key := by
  obtain ⟨lane, hl, hkey⟩ := Option.map_eq_some_iff.mp hk
  cases h with
  | look => exact hk
  | trip until_ => exact hk
  | resolve other => simp [Registry.keyOf?, hw.lane?_resolve hl other now, hkey]
  | unify used hash =>
    have hf : (q.registry.ownerOf used hash now).1.keyOf? number = some key := by
      simp [Registry.keyOf?, hw.lane?_ownerOf hl used hash now, hkey]
    rcases Registry.unify_cases hw used hash now with
      ⟨-, hashes, hu⟩ | ⟨-, _, ownerLane, -, ho, -, hu⟩
    · rw [hu]
      exact hf
    · rw [hu, Registry.keyOf_merge ho]
      exact hf
  | serve hl' hb => exact (Registry.keyOf_setLane hl' hb.key_eq number).trans hk

theorem Edits.wellFormed (h : Edits now q q') (hw : q.registry.WellFormed) :
    q'.registry.WellFormed :=
  Move.wellFormed (.edits h) hw

theorem Edits.keeps_key (h : Edits now q q') (hw : q.registry.WellFormed)
    (hk : q.registry.keyOf? number = some key) : q'.registry.keyOf? number = some key := by
  induction h with
  | refl => exact hk
  | tail hs he ih => exact he.keeps_key (Edits.wellFormed hs hw) ih

theorem Move.keeps_key (h : Move now q q') (hw : q.registry.WellFormed)
    (hk : q.registry.keyOf? number = some key) : q'.registry.keyOf? number = some key := by
  cases h with
  | edits h => exact h.keeps_key hw hk
  | close reason => exact hk
  | cleanup idle => exact hk

theorem Move.keeps_lane (h : Move now q q') (hw : q.registry.WellFormed)
    (hl : (q.registry.lane? number).isSome) : (q'.registry.lane? number).isSome := by
  obtain ⟨lane, hl⟩ := Option.isSome_iff_exists.mp hl
  have hk : q.registry.keyOf? number = some lane.bucket.key := by simp [Registry.keyOf?, hl]
  obtain ⟨lane', hl', -⟩ := Option.map_eq_some_iff.mp (h.keeps_key hw hk)
  exact Option.isSome_of_eq_some hl'

theorem Edits.keeps_lane (h : Edits now q q') (hw : q.registry.WellFormed)
    (hl : (q.registry.lane? number).isSome) : (q'.registry.lane? number).isSome :=
  Move.keeps_lane (.edits h) hw hl

end Queue

namespace Submission

/-- The lane in whose line the request stands, or of which it has a slot. -/
def lane? (s : Submission) : Option Nat :=
  match s.phase with
  | .inLine lane | .asleep lane _ | .sending lane => some lane
  | _ => none

def Held (q : Queue) (s : Submission) : Prop := ∀ n ∈ s.lane?, (q.registry.lane? n).isSome

variable {q : Queue} {id : Nat} {s : Submission} {now : Instant} {number : Nat}

@[simp] theorem lane?_finish (s : Submission) (result : Outcome) :
    (s.finish result).lane? = none := rfl

@[simp] theorem lane?_again (q : Queue) (s : Submission) (now : Instant) :
    (s.again q now).lane? = none := by
  unfold again
  split <;> rfl

theorem held_of_none (h : s.lane? = none) : Held q s := by
  intro n hn
  rw [h] at hn
  simp at hn

theorem mem_lane?_launch {n : Nat} (h : n ∈ (launch q id s number now).2.lane?) : n = number := by
  unfold launch at h
  dsimp only at h
  split_ifs at h
  · simp [lane?] at h
  · simp [lane?] at h
  · simpa [lane?, eq_comm] using h

theorem mem_lane?_settle {n : Nat} {place : Lane × Place}
    (h : n ∈ (settle q id s number now place).2.lane?) : n = number := by
  obtain ⟨lane, place⟩ := place
  cases place with
  | inLine => simpa [settle, lane?, eq_comm] using h
  | asleep t => simpa [settle, lane?, eq_comm] using h
  | granted => exact mem_lane?_launch h
  | refused e => simp [settle] at h

theorem held_settle (hw : q.registry.WellFormed) {lane : Lane} {place : Lane × Place}
    (h : q.registry.lane? number = some lane) (hb : lane.bucket.Evolves now place.1.bucket) :
    Held (settle q id s number now place).1 (settle q id s number now place).2 := by
  intro n hn
  rw [mem_lane?_settle hn]
  exact (touches_settle q id s now h hb).edits.keeps_lane hw (by rw [h]; rfl)

theorem held_ask (hw : q.registry.WellFormed) :
    Held (ask q id s number now).1 (ask q id s number now).2 := by
  unfold ask
  split
  · next lane h => exact held_settle hw h (lane.evolves_ask id _ _ now)
  · exact held_of_none rfl

theorem held_enter (hw : q.registry.WellFormed) :
    Held (enter q id s now).1 (enter q id s now).2 := by
  unfold enter
  split
  · exact held_of_none rfl
  · dsimp only
    split
    · split
      · exact held_of_none rfl
      · exact held_of_none rfl
    · split
      · next lane h => exact held_settle (hw.resolve s.key now) h (lane.evolves_arrive id _ _ now)
      · exact held_of_none rfl

theorem lane?_land (q : Queue) (id : Nat) (s : Submission) (lane : Nat) (outcome : Outcome)
    (now : Instant) : (land q id s lane outcome now).2.lane? = none := by
  cases outcome with
  | ok r =>
    simp only [land, onResponse]
    split
    · rfl
    · split_ifs <;> simp
  | error e =>
    simp only [land, onFailure]
    split_ifs <;> simp

theorem lane?_abort (q : Queue) (id : Nat) (s : Submission) (e : ClientError) (now : Instant) :
    (abort q id s e now).2.lane? = none := by
  unfold abort
  split
  · rfl
  · rfl
  · exact lane?_land q id s _ _ now
  · rfl

theorem held_step (hw : q.registry.WellFormed) (h : Held q s) (id : Nat) (now : Instant)
    (wake : Wake) :
    Held (step q id s now wake).1 (step q id s now wake).2 := by
  have ha (e : ClientError) : Held (abort q id s e now).1 (abort q id s e now).2 :=
    held_of_none (lane?_abort q id s e now)
  unfold step
  split
  · split
    · exact held_of_none rfl
    · exact held_of_none rfl
  · exact held_enter hw
  · exact held_enter hw
  · exact held_ask hw
  · exact held_ask hw
  · exact held_of_none (lane?_land q id s _ _ now)
  · exact ha .timeout
  · split_ifs
    · exact ha .canceled
    · exact h
  · split
    · split_ifs
      · exact ha _
      · exact h
    · exact h
  · exact h

theorem lane?_abandon (q : Queue) (id : Nat) (s : Submission) :
    (abandon q id s).2.lane? = none := by
  unfold abandon
  dsimp only
  split_ifs with ho
  · unfold isOver at ho
    split at ho
    · next hp => simp [lane?, hp]
    · next hp => simp [lane?, hp]
    · simp at ho
  · rfl

theorem held_abandon (q : Queue) (id : Nat) (s : Submission) :
    Held (abandon q id s).1 (abandon q id s).2 :=
  held_of_none (lane?_abandon q id s)

end Submission

namespace Traffic

/-- The registry is well-formed, and every request holds a lane that exists. -/
structure Sound (x : Traffic) : Prop where
  wellFormed : x.queue.registry.WellFormed
  held : ∀ id s, x.submissions id = some s → s.Held x.queue

variable {x : Traffic}

theorem sound_create (backoff : Duration) : (create backoff).Sound :=
  ⟨Registry.wellFormed_create backoff, fun _ _ h => by simp [create] at h⟩

/-- One request goes from one queue to the next, and all others keep their lanes. -/
theorem Sound.put (h : x.Sound) {now : Instant} {id : Nat} {next : Queue × Submission}
    (hm : Queue.Move now x.queue next.1) (hs : next.2.Held next.1) : (x.put id next).Sound := by
  refine ⟨hm.wellFormed h.wellFormed, ?_⟩
  intro other s ho
  by_cases hid : other = id
  · subst hid
    rw [submissions_put, Option.some.injEq] at ho
    exact ho ▸ hs
  · simp only [Traffic.put, if_neg hid] at ho
    intro n hn
    exact hm.keeps_lane h.wellFormed (h.held other s ho n hn)

theorem Sound.move (h : x.Sound) {now : Instant} {q : Queue} (hm : Queue.Move now x.queue q) :
    Sound { x with queue := q } := by
  refine ⟨hm.wellFormed h.wellFormed, ?_⟩
  intro id s hs n hn
  exact hm.keeps_lane h.wellFormed (h.held id s hs n hn)

theorem Sound.next (h : x.Sound) (e : Event) : (x.next e).Sound := by
  have hstay : Queue.Move e.time x.queue x.queue := .edits .refl
  obtain ⟨now, act⟩ := e
  unfold Traffic.next
  cases act with
  | submit id request =>
    dsimp only
    split
    · exact h.put hstay (Submission.held_of_none rfl)
    · exact h
  | wake id wake =>
    dsimp only
    split
    · next s hs =>
      split_ifs
      · have hheld := Submission.held_step h.wellFormed (h.held id s hs) id now wake
        exact h.put (.edits (s.edits_step x.queue id now wake)) hheld
      · exact h
    · exact h
  | cancel id =>
    dsimp only
    split
    · next s hs => exact h.put hstay (h.held id s hs)
    · exact h
  | abandon id =>
    dsimp only
    split
    · next s hs =>
      exact h.put (.edits (s.touches_abandon x.queue id now).edits) (Submission.held_abandon x.queue id s)
    · exact h
  | close reason =>
    have hm : Queue.Move now x.queue (x.queue.close reason) := .close x.queue reason
    exact h.move hm
  | trip until_ =>
    have hm : Queue.Edits now x.queue { x.queue with gate := x.queue.gate.trip until_ } :=
      .one (.trip x.queue until_)
    exact h.move (.edits hm)
  | look => exact h.move (.edits (.one (.look x.queue)))
  | find key => exact h.move (.edits (.one (.resolve x.queue key)))
  | cleanup idle => exact h.move (.cleanup x.queue idle)

theorem Sound.run (h : x.Sound) (events : List Event) : (x.run events).Sound := by
  induction events generalizing x with
  | nil => exact h
  | cons e events ih => exact ih (h.next e)

theorem sound_run (backoff : Duration) (events : List Event) :
    ((create backoff).run events).Sound :=
  (sound_create backoff).run events

theorem run_keeps_of_wellFormed {P : Queue → Prop} (hw : x.queue.registry.WellFormed)
    (events : List Event) (h : P x.queue)
    (hk : ∀ e ∈ events, ∀ q q', Queue.Move e.time q q' → q.registry.WellFormed → P q → P q') :
    P (x.run events).queue :=
  (run_keeps (P := fun q => q.registry.WellFormed ∧ P q) x events ⟨hw, h⟩
    fun e he q q' hm hq => ⟨hm.wellFormed hq.1, hk e he q q' hm hq.1 hq.2⟩).2

end Traffic

end Parley.Rest
