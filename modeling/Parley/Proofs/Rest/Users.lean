import Parley.Proofs.Rest.Booking
import Parley.Proofs.Rest.Dealings

/-! The users of a lane. A request that stands in the line of a lane or has a slot of it is listed
there, since others only write themselves in and out. And the last attempt that a bucket has on
record is no earlier than any request for a slot that has reached it. -/
namespace Parley.Rest

namespace Lane

/-- All requests but one that stand in line or have a slot still do. -/
structure Spares (id : Nat) (l l' : Lane) : Prop where
  line : ∀ other, other ≠ id → other ∈ l.line → other ∈ l'.line
  inFlight : ∀ other, other ≠ id → other ∈ l.inFlight → other ∈ l'.inFlight

def Seats (id : Nat) : Lane × Place → Prop
  | (l, .inLine) | (l, .asleep _) => id ∈ l.line
  | _ => True

variable {id : Nat} {l l' l'' : Lane} {terms : Terms} {signals : Signals} {now : Instant}

theorem Spares.of_eq (hl : l'.line = l.line) (hf : l'.inFlight = l.inFlight) : l.Spares id l' :=
  ⟨fun _ _ h => hl ▸ h, fun _ _ h => hf ▸ h⟩

theorem Spares.trans (h : l.Spares id l') (h' : l'.Spares id l'') : l.Spares id l'' :=
  ⟨fun other hne hm => h'.line other hne (h.line other hne hm),
    fun other hne hm => h'.inFlight other hne (h.inFlight other hne hm)⟩

theorem spares_leave (l : Lane) (id : Nat) : l.Spares id (l.leave id) :=
  ⟨fun _ hne hm => (List.mem_erase_of_ne hne).mpr hm, fun _ _ hm => hm⟩

theorem spares_land (l : Lane) (id : Nat) : l.Spares id (l.land id) :=
  ⟨fun _ _ hm => hm, fun _ hne hm => (List.mem_erase_of_ne hne).mpr hm⟩

theorem spares_launch (l : Lane) (id : Nat) : l.Spares id (l.launch id) :=
  ⟨fun _ _ hm => hm, fun _ _ hm => List.mem_append_left _ hm⟩

theorem spares_ask (l : Lane) (id : Nat) (terms : Terms) (signals : Signals) (now : Instant) :
    l.Spares id (l.ask id terms signals now).1 := by
  have hleave (bucket : Bucket) : l.Spares id ({ l with bucket }.leave id) :=
    ⟨(l.spares_leave id).line, (l.spares_leave id).inFlight⟩
  unfold ask
  split
  · exact spares_leave l id
  · split
    · exact hleave _
    · dsimp only
      split
      · exact hleave _
      · exact .of_eq rfl rfl

theorem spares_arrive (l : Lane) (id : Nat) (terms : Terms) (signals : Signals) (now : Instant) :
    l.Spares id (l.arrive id terms signals now).1 := by
  have hjoined : l.Spares id { l with line := l.line ++ [id] } :=
    ⟨fun _ _ hm => List.mem_append_left _ hm, fun _ _ hm => hm⟩
  unfold arrive
  split
  · exact .of_eq rfl rfl
  · dsimp only
    split_ifs
    · exact hjoined.trans (spares_ask _ id terms signals now)
    · exact hjoined

theorem seats_ask (h : id ∈ l.line) (terms : Terms) (signals : Signals) (now : Instant) :
    Seats id (l.ask id terms signals now) := by
  unfold ask
  split
  · trivial
  · split
    · trivial
    · dsimp only
      split
      · trivial
      · exact h

theorem seats_arrive (l : Lane) (id : Nat) (terms : Terms) (signals : Signals) (now : Instant) :
    Seats id (l.arrive id terms signals now) := by
  have hjoined : id ∈ l.line ++ [id] := List.mem_append_right _ List.mem_cons_self
  unfold arrive
  split
  · trivial
  · dsimp only
    split_ifs
    · exact seats_ask hjoined terms signals now
    · exact hjoined

end Lane

namespace Queue

def Spares (id : Nat) (q q' : Queue) : Prop :=
  ∀ n lane, q.registry.lane? n = some lane →
    ∃ lane', q'.registry.lane? n = some lane' ∧ lane.Spares id lane'

variable {id number : Nat} {q q' q'' : Queue} {lane lane' : Lane}

theorem Spares.refl (id : Nat) (q : Queue) : Spares id q q :=
  fun _ lane h => ⟨lane, h, .of_eq rfl rfl⟩

theorem Spares.trans (h : Spares id q q') (h' : Spares id q' q'') : Spares id q q'' := by
  intro n lane hl
  obtain ⟨lane', hl', hs⟩ := h n lane hl
  obtain ⟨lane'', hl'', hs'⟩ := h' n lane' hl'
  exact ⟨lane'', hl'', hs.trans hs'⟩

theorem spares_setLane (hl : q.registry.lane? number = some lane) (hs : lane.Spares id lane') :
    Spares id q { q with registry := q.registry.setLane number lane' } := by
  intro n other ho
  rw [Registry.lane?_setLane]
  split_ifs with hn
  · subst hn
    obtain rfl := Option.some.inj (hl.symm.trans ho)
    exact ⟨lane', rfl, hs⟩
  · exact ⟨other, ho, .of_eq rfl rfl⟩

theorem spares_modifyLane (q : Queue) (number : Nat) {f : Lane → Lane}
    (hf : ∀ lane, Lane.Spares id lane (f lane)) :
    Spares id q { q with registry := q.registry.modifyLane number f } := by
  cases hl : q.registry.lane? number with
  | none =>
    rw [Registry.modifyLane_of_none hl]
    exact .refl id q
  | some lane =>
    rw [Registry.modifyLane_of_some hl]
    exact spares_setLane hl (hf lane)

theorem spares_resolve (hw : q.registry.WellFormed) (id : Nat) (key : BucketKey) (now : Instant) :
    Spares id q { q with registry := (q.registry.resolve key now).1 } :=
  fun _ lane hl => ⟨lane, hw.lane?_resolve hl key now, .of_eq rfl rfl⟩

theorem spares_merged (hw : q.registry.WellFormed) (id used : Nat) (hash : Option BucketHash)
    (now : Instant) : Spares id q { q with registry := (q.registry.merged used hash now).1 } := by
  have hd : Spares id q { q with registry := (q.registry.destination used hash now).1 } := by
    cases hash with
    | none => exact .refl id q
    | some hash =>
      exact fun _ other hl => ⟨other, hw.lane?_ownerOf hl used hash now, .of_eq rfl rfl⟩
  rcases Registry.merged_cases hw used hash now with
    ⟨-, hashes, hm⟩ | ⟨-, lane, ownerLane, -, ho, -, hm⟩
  · rw [hm]
    exact hd
  · rw [hm]
    have hc : ownerLane.Spares id { ownerLane with bucket := ownerLane.bucket.consume } :=
      .of_eq rfl rfl
    exact hd.trans (spares_setLane (q := { q with registry := _ }) ho hc)

theorem spares_charge (q : Queue) (id lane : Nat) (info : RateLimit) (isRefusal : Bool)
    (now : Instant) : Spares id q (q.charge lane info isRefusal now).1 := by
  have hset (bucket : Bucket) : Spares id q (q.setBucket lane bucket) :=
    spares_modifyLane q lane fun l => .of_eq rfl rfl
  unfold charge
  split
  · exact .refl id q
  · split
    · exact hset _
    · cases isRefusal with
      | false => exact hset _
      | true =>
        simp only [if_true]
        split
        · exact hset _
        · exact hset _

theorem spares_book (hw : q.registry.WellFormed) (id used : Nat) (key : BucketKey) (r : Response)
    (now : Instant) : Spares id q (q.book used key r now).1 := by
  rw [book_eq]
  exact (spares_merged hw id used _ now).trans (spares_charge _ id _ _ _ now)

end Queue

namespace Submission

open Queue (Spares)

def Listed (q : Queue) (id : Nat) (s : Submission) : Prop :=
  match s.phase with
  | .inLine n | .asleep n _ => ∃ lane, q.registry.lane? n = some lane ∧ id ∈ lane.line
  | .sending n => ∃ lane, q.registry.lane? n = some lane ∧ id ∈ lane.inFlight
  | _ => True

variable {q q' : Queue} {id other number : Nat} {s : Submission} {now : Instant} {lane : Lane}
  {place : Lane × Place}

theorem listed_of_none (h : s.lane? = none) : Listed q id s := by
  unfold lane? at h
  unfold Listed
  split <;> simp_all

theorem Listed.spared (h : Listed q id s) (hs : Spares other q q') (hne : id ≠ other) :
    Listed q' id s := by
  have hline {n : Nat} (h : ∃ lane, q.registry.lane? n = some lane ∧ id ∈ lane.line) :
      ∃ lane, q'.registry.lane? n = some lane ∧ id ∈ lane.line := by
    obtain ⟨lane, hl, hm⟩ := h
    obtain ⟨lane', hl', hsp⟩ := hs n lane hl
    exact ⟨lane', hl', hsp.line id hne hm⟩
  unfold Listed at *
  split at h
  · exact hline h
  · exact hline h
  · next n hp =>
    obtain ⟨lane, hl, hm⟩ := h
    obtain ⟨lane', hl', hsp⟩ := hs n lane hl
    exact ⟨lane', hl', hsp.inFlight id hne hm⟩
  · trivial

theorem spares_launch (hw : q.registry.WellFormed) (id : Nat) (s : Submission) (number : Nat)
    (now : Instant) : Spares id q (launch q id s number now).1 := by
  have hr := Queue.spares_resolve hw id s.key now
  unfold launch
  dsimp only
  split_ifs
  · exact hr.trans (Queue.spares_modifyLane _ number fun l => .of_eq rfl rfl)
  · exact hr.trans (Queue.spares_modifyLane _ number fun l => .of_eq rfl rfl)
  · exact hr.trans (Queue.spares_modifyLane _ number fun l => l.spares_launch id)

theorem listed_launch (hw : q.registry.WellFormed) (hl : q.registry.lane? number = some lane)
    (id : Nat) (s : Submission) (now : Instant) :
    Listed (launch q id s number now).1 id (launch q id s number now).2 := by
  rcases launch_cases q id s number now with ⟨hp, hq⟩ | ⟨hp, hq⟩
  · have hr := hw.lane?_resolve hl s.key now
    simp only [Listed, hp, hq, Registry.modifyLane_of_some hr, Registry.lane?_setLane_self]
    exact ⟨_, rfl, List.mem_append_right _ List.mem_cons_self⟩
  · simp [Listed, hp]

theorem spares_settle (hw : q.registry.WellFormed) (hl : q.registry.lane? number = some lane)
    (hb : lane.bucket.Evolves now place.1.bucket) (hs : lane.Spares id place.1) (s : Submission) :
    Spares id q (settle q id s number now place).1 := by
  obtain ⟨lane', place⟩ := place
  have hset := Queue.spares_setLane hl hs
  cases place with
  | granted => exact hset.trans (spares_launch (hw.setLane hl hb.key_eq) id s number now)
  | _ => exact hset

theorem listed_settle (hw : q.registry.WellFormed) (hl : q.registry.lane? number = some lane)
    (hb : lane.bucket.Evolves now place.1.bucket) (hs : Lane.Seats id place) (s : Submission) :
    Listed (settle q id s number now place).1 id (settle q id s number now place).2 := by
  obtain ⟨lane', place⟩ := place
  have hself := q.registry.lane?_setLane_self number lane'
  cases place with
  | inLine => exact ⟨lane', hself, hs⟩
  | asleep t => exact ⟨lane', hself, hs⟩
  | granted => exact listed_launch (hw.setLane hl hb.key_eq) hself id s now
  | refused e => trivial

theorem spares_ask (hw : q.registry.WellFormed) (id : Nat) (s : Submission) (number : Nat)
    (now : Instant) : Spares id q (ask q id s number now).1 := by
  unfold ask
  split
  · next lane hl =>
    exact spares_settle hw hl (lane.evolves_ask id _ _ now) (lane.spares_ask id _ _ now) s
  · exact .refl id q

theorem spares_enter (hw : q.registry.WellFormed) (id : Nat) (s : Submission) (now : Instant) :
    Spares id q (enter q id s now).1 := by
  have hr : Spares id q (passed q s now) := Queue.spares_resolve hw id s.key now
  unfold enter
  split
  · exact .refl id q
  · dsimp only
    split
    · split
      · exact .refl id q
      · exact .refl id q
    · split
      · next lane hl =>
        exact hr.trans (spares_settle (hw.resolve s.key now) hl (lane.evolves_arrive id _ _ now)
          (lane.spares_arrive id _ _ now) s)
      · exact hr

theorem spares_land (hw : q.registry.WellFormed) (id : Nat) (s : Submission) (number : Nat)
    (outcome : Outcome) (now : Instant) : Spares id q (land q id s number outcome now).1 := by
  have hl : Spares id q { q with registry := q.registry.modifyLane number (·.land id) } :=
    Queue.spares_modifyLane q number fun l => l.spares_land id
  have hw' : (q.registry.modifyLane number (·.land id)).WellFormed :=
    Queue.Edits.wellFormed (touches_land q id now number).edits hw
  cases outcome with
  | ok r =>
    simp only [land, onResponse_queue]
    exact hl.trans (Queue.spares_book hw' id number s.key r now)
  | error e =>
    simp only [land, onFailure]
    have hr := hl.trans (Queue.spares_modifyLane _ number (f := .refund) fun l => .of_eq rfl rfl)
    split_ifs
    · exact hr
    · exact hr

theorem spares_abort (hw : q.registry.WellFormed) (id : Nat) (s : Submission) (e : ClientError)
    (now : Instant) : Spares id q (abort q id s e now).1 := by
  have hl (n : Nat) : Spares id q { q with registry := q.registry.modifyLane n (·.leave id) } :=
    Queue.spares_modifyLane q n fun l => l.spares_leave id
  unfold abort
  split
  · exact hl _
  · exact hl _
  · exact spares_land hw id s _ _ now
  · exact .refl id q

theorem spares_abandon (q : Queue) (id : Nat) (s : Submission) :
    Spares id q (abandon q id s).1 := by
  have hl (n : Nat) : Spares id q { q with registry := q.registry.modifyLane n (·.leave id) } :=
    Queue.spares_modifyLane q n fun l => l.spares_leave id
  unfold abandon
  dsimp only
  split
  · exact hl _
  · exact hl _
  · exact Queue.spares_modifyLane q _ fun l => l.spares_land id
  · exact .refl id q

theorem spares_step (hw : q.registry.WellFormed) (id : Nat) (s : Submission) (now : Instant)
    (wake : Wake) : Spares id q (step q id s now wake).1 := by
  unfold step
  split
  · split <;> exact .refl id q
  · exact spares_enter hw id s now
  · exact spares_enter hw id s now
  · exact spares_ask hw id s _ now
  · exact spares_ask hw id s _ now
  · exact spares_land hw id s _ _ now
  · exact spares_abort hw id s _ now
  · split_ifs
    · exact spares_abort hw id s _ now
    · exact .refl id q
  · split
    · split_ifs
      · exact spares_abort hw id s _ now
      · exact .refl id q
    · exact .refl id q
  · exact .refl id q

theorem Listed.mem_line (h : Listed q id s) (hn : number ∈ s.lane?) (hs : s.isSending = false)
    (hl : q.registry.lane? number = some lane) : id ∈ lane.line := by
  unfold Listed at h
  unfold lane? at hn
  unfold isSending at hs
  cases hp : s.phase <;> simp_all

theorem Listed.inUse (h : Listed q id s) (hn : number ∈ s.lane?)
    (hl : q.registry.lane? number = some lane) : lane.inUse = true := by
  have hline (hm : id ∈ lane.line) : lane.inUse = true := by
    simp [Lane.inUse, List.isEmpty_eq_false_iff.mpr (List.ne_nil_of_mem hm)]
  cases hs : s.isSending with
  | false => exact hline (h.mem_line hn hs hl)
  | true =>
    obtain ⟨n, hp⟩ := exists_lane_of_isSending hs
    simp only [lane?, hp, Option.mem_def, Option.some.injEq] at hn
    subst hn
    simp only [Listed, hp] at h
    obtain ⟨lane', hl', hm⟩ := h
    obtain rfl := Option.some.inj (hl.symm.trans hl')
    simp [Lane.inUse, List.isEmpty_eq_false_iff.mpr (List.ne_nil_of_mem hm)]

theorem wellFormed_of_question (hw : q.registry.WellFormed) {wake : Wake} {a : Question}
    (hq : question? q id s now wake = some a) : a.queue.registry.WellFormed := by
  obtain ⟨-, -, ⟨hpass, -⟩ | ⟨hsame, -⟩⟩ := question_cases hq
  · rw [hpass]
    exact hw.resolve s.key now
  · rw [hsame]
    exact hw

theorem listed_step (hw : q.registry.WellFormed) (h : Listed q id s) (now : Instant) (wake : Wake) :
    Listed (step q id s now wake).1 id (step q id s now wake).2 := by
  cases hn : (step q id s now wake).2.lane? with
  | none => exact listed_of_none hn
  | some n =>
    rcases mem_lane?_step (Option.mem_def.mpr hn) with hstay | ⟨a, hq, -⟩
    · rw [hstay]
      exact h
    · rw [step_of_question hq]
      have hw' := wellFormed_of_question hw hq
      obtain ⟨lane, hl, ⟨-, -, ha⟩ | ⟨hsame, hin, ha⟩⟩ := question_cases hq
      · have hb := lane.evolves_arrive id s.terms (s.signals q) now
        have hseat := lane.seats_arrive id s.terms (s.signals q) now
        rw [← ha] at hb hseat
        exact listed_settle hw' hl hb hseat s
      · have hsend : s.isSending = false := by
          rw [Bool.eq_false_iff]
          intro hsend
          obtain ⟨n, hp⟩ := exists_lane_of_isSending hsend
          simp [Traffic.question?_of_sending hp] at hq
        have hb := lane.evolves_ask id s.terms (s.signals q) now
        have hseat := Lane.seats_ask (h.mem_line hin hsend (hsame ▸ hl)) s.terms (s.signals q) now
        rw [← ha] at hb hseat
        exact listed_settle hw' hl hb hseat s

end Submission

namespace Bucket

variable {b b' : Bucket} {now t : Instant}

theorem lastAttempt_refill (b : Bucket) (now : Instant) :
    (b.refill now).lastAttempt = b.lastAttempt := by
  unfold refill
  split
  · split_ifs <;> rfl
  · rfl

theorem lastAttempt_tryAdmit (b : Bucket) (now : Instant) :
    (b.tryAdmit now).1.lastAttempt = now := by
  unfold tryAdmit
  dsimp only
  split_ifs
  · rfl
  · exact lastAttempt_refill _ now
  · exact lastAttempt_refill _ now

theorem lastAttempt_absorb (b : Bucket) (info : RateLimit) (now : Instant) :
    (b.absorb info now).lastAttempt = b.lastAttempt := by
  rcases b.update?_cases info now with ⟨-, h⟩ | ⟨-, h | h | h⟩
  · rw [absorb_of_update h]
  · rw [absorb_of_update h]
  · rw [absorb_of_update h]
    rfl
  · rw [absorb_of_broken_off h]
    rfl

theorem lastAttempt_refund (b : Bucket) : b.refund.lastAttempt = b.lastAttempt := by
  unfold refund
  split_ifs <;> rfl

/-- Only a request for a slot counts as an attempt. -/
theorem lastAttempt_next (b : Bucket) (e : Event) :
    (b.next e).lastAttempt = b.lastAttempt ∨ (b.next e).lastAttempt = e.time := by
  obtain ⟨time, act⟩ := e
  cases act with
  | ask => exact Or.inr (b.lastAttempt_tryAdmit time)
  | learn info => exact Or.inl (b.lastAttempt_absorb info time)
  | refusal wait =>
    left
    cases hr : time.after? wait <;> simp [next, refused, hr, refuse, drain]
  | consume =>
    left
    simp only [next, consume]
    split_ifs <;> rfl
  | refund => exact Or.inl b.lastAttempt_refund

theorem Evolves.lastAttempt_eq (h : b.Evolves now b') :
    b'.lastAttempt = b.lastAttempt ∨ b'.lastAttempt = now := by
  obtain ⟨events, hnow, rfl⟩ := h
  induction events generalizing b with
  | nil => exact Or.inl rfl
  | cons e events ih =>
    have hlater := ih (b := b.next e) fun d hd => hnow d (List.mem_cons_of_mem e hd)
    rcases hlater with hl | hl
    · rcases b.lastAttempt_next e with he | he
      · exact Or.inl (hl.trans he)
      · exact Or.inr ((hl.trans he).trans (hnow e List.mem_cons_self))
    · exact Or.inr hl

theorem Evolves.le_lastAttempt (h : b.Evolves now b') (ht : t ≤ now) (hb : t ≤ b.lastAttempt) :
    t ≤ b'.lastAttempt := by
  rcases h.lastAttempt_eq with he | he
  · exact he ▸ hb
  · exact he ▸ ht

end Bucket

namespace Queue

variable {q q' : Queue} {now t : Instant} {n : Nat} {b : Bucket}

/-- Whatever is done to a queue, to each of its buckets it is done by operations of that bucket. -/
theorem Edit.evolves (h : Edit now q q') (hw : q.registry.WellFormed)
    (hb : q.registry.bucketOf? n = some b) :
    ∃ b', q'.registry.bucketOf? n = some b' ∧ b.Evolves now b' := by
  cases h with
  | look => exact ⟨b, hb, .refl now b⟩
  | trip until_ => exact ⟨b, hb, .refl now b⟩
  | resolve key => exact ⟨b, hw.bucketOf?_resolve hb key now, .refl now b⟩
  | unify used hash =>
    obtain ⟨lane, hl, rfl⟩ := Registry.bucketOf?_eq_some.mp hb
    have ho := hw.lane?_ownerOf hl used hash now
    rcases Registry.unify_cases hw used hash now with
      ⟨-, hashes, hu⟩ | ⟨-, _, ownerLane, -, hown, -, hu⟩
    · rw [hu]
      exact ⟨_, Registry.bucketOf?_eq_some.mpr ⟨lane, ho, rfl⟩, .refl now _⟩
    · rw [hu, Registry.merge, Registry.bucketOf?_setLane]
      split_ifs with hn
      · subst hn
        obtain rfl := Option.some.inj (hown.symm.trans ho)
        exact ⟨_, rfl, .act now _ .consume⟩
      · exact ⟨_, Registry.bucketOf?_eq_some.mpr ⟨lane, ho, rfl⟩, .refl now _⟩
  | @serve number lane lane' hl he =>
    rw [Registry.bucketOf?_setLane]
    split_ifs with hn
    · subst hn
      obtain ⟨other, ho, rfl⟩ := Registry.bucketOf?_eq_some.mp hb
      obtain rfl := Option.some.inj (hl.symm.trans ho)
      exact ⟨_, rfl, he⟩
    · exact ⟨b, hb, .refl now b⟩

theorem Move.evolves (h : Move now q q') (hw : q.registry.WellFormed)
    (hb : q.registry.bucketOf? n = some b) :
    ∃ b', q'.registry.bucketOf? n = some b' ∧ b.Evolves now b' := by
  cases h with
  | edits h =>
    induction h with
    | refl => exact ⟨b, hb, .refl now b⟩
    | tail hs he ih =>
      obtain ⟨b', hb', hev⟩ := ih
      obtain ⟨b'', hb'', hev'⟩ := he.evolves (Edits.wellFormed hs hw) hb'
      exact ⟨b'', hb'', hev.trans hev'⟩
  | close reason => exact ⟨b, hb, .refl now b⟩
  | cleanup idle => exact ⟨b, hb, .refl now b⟩

end Queue

namespace Traffic

variable {x : Traffic} {e : Event} {n : Nat} {b : Bucket} {t : Instant}

def AttemptedSince (n : Nat) (t : Instant) (q : Queue) : Prop :=
  ∃ b, q.registry.bucketOf? n = some b ∧ t ≤ b.lastAttempt

theorem attemptedSince_run (hw : x.queue.registry.WellFormed) (h : AttemptedSince n t x.queue)
    (events : List Event) (ht : ∀ e ∈ events, t ≤ e.time) :
    AttemptedSince n t (x.run events).queue := by
  refine run_keeps_of_wellFormed hw events h ?_
  rintro e he q q' hm hw ⟨b, hb, hle⟩
  obtain ⟨b', hb', hev⟩ := hm.evolves hw hb
  exact ⟨b', hb', hev.le_lastAttempt (ht e he) hle⟩

theorem attemptedSince_of_asks (hx : x.Sound) (h : x.Asks e n) :
    AttemptedSince n e.time (x.next e).queue := by
  obtain ⟨id, wake, s, a, hw, hq, rfl, ht⟩ := h
  obtain ⟨lane, hl, -⟩ := Submission.question_cases hq
  have hb : a.queue.registry.bucketOf? a.lane = some lane.bucket :=
    Registry.bucketOf?_eq_some.mpr ⟨lane, hl, rfl⟩
  have htried : Lane.Tried lane.bucket e.time a.answer :=
    ((Submission.question_answers hq hb).resolve_right fun hno => hno.1 ht).2
  have hlast : a.answer.1.bucket.lastAttempt = e.time := by
    rw [htried.bucket, Bucket.lastAttempt_tryAdmit]
  have hk : a.answer.1.bucket.key = lane.bucket.key := by
    rw [htried.bucket, Bucket.key_tryAdmit]
  have hsettled := Submission.bucketOf?_settle (Submission.wellFormed_of_question hx.wellFormed hq)
    id s e.time hl hk hb
  rw [← Submission.step_of_question hq] at hsettled
  simp only [if_true] at hsettled
  -- the slot may have been given back at once
  have hle (returned : Prop) [Decidable returned] :
      e.time ≤ (if returned then a.answer.1.bucket.refund else a.answer.1.bucket).lastAttempt := by
    have hrefund := Bucket.lastAttempt_refund a.answer.1.bucket
    split_ifs
    · rw [hrefund, hlast]
      exact Nat.le_refl e.time.nanos
    · rw [hlast]
      exact Nat.le_refl e.time.nanos
  rw [hw.next]
  exact ⟨_, hsettled, hle _⟩

/-- No request for a slot that has reached a bucket is later than its last attempt. -/
theorem le_lastAttempt_of_asks (backoff : Duration) {before after : List Event}
    (ho : InOrder (e :: after)) (ha : ((create backoff).run before).Asks e n)
    (hb : ((create backoff).run (before ++ e :: after)).bucketOf? n = some b) :
    e.time ≤ b.lastAttempt := by
  have hx := sound_run backoff before
  have hsince := attemptedSince_run (hx.next e).wellFormed (attemptedSince_of_asks hx ha) after
    (List.pairwise_cons.mp ho).1
  obtain ⟨b', hb', hle⟩ := hsince
  have hrun : (create backoff).run (before ++ e :: after) =
      (((create backoff).run before).next e).run after := by
    simp [run]
  rw [hrun] at hb
  obtain rfl := Option.some.inj (hb.symm.trans hb')
  exact hle

def Rolled (x : Traffic) : Prop := ∀ id s, x.submissions id = some s → s.Listed x.queue id

theorem Rolled.put (h : x.Rolled) {id : Nat} {next : Queue × Submission}
    (hs : Queue.Spares id x.queue next.1) (hl : next.2.Listed next.1 id) :
    (x.put id next).Rolled := by
  intro other s ho
  obtain ⟨rfl, rfl⟩ | ⟨hne, ho⟩ := submissions_put_cases ho
  · exact hl
  · exact (h other s ho).spared hs hne

theorem Rolled.next (h : x.Rolled) (hw : x.queue.registry.WellFormed) (e : Event) :
    (x.next e).Rolled := by
  obtain ⟨now, act⟩ := e
  unfold Traffic.next
  cases act with
  | submit id request =>
    dsimp only
    split
    · exact h.put (.refl id _) (Submission.listed_of_none rfl)
    · exact h
  | wake id wake =>
    dsimp only
    split
    · next s hs =>
      split_ifs
      · exact h.put (Submission.spares_step hw id s now wake)
          (Submission.listed_step hw (h id s hs) now wake)
      · exact h
    · exact h
  | cancel id =>
    dsimp only
    split
    · next s hs => exact h.put (.refl id _) (h id s hs)
    · exact h
  | abandon id =>
    dsimp only
    split
    · next s hs =>
      exact h.put (Submission.spares_abandon x.queue id s)
        (Submission.listed_of_none (Submission.lane?_abandon x.queue id s))
    · exact h
  | close reason => exact h
  | trip until_ => exact h
  | look => exact h
  | find key =>
    intro id s hs
    -- a lookup spares everybody, so also all but somebody else
    exact (h id s hs).spared (Queue.spares_resolve hw (id + 1) key now) (Nat.ne_of_lt id.lt_succ_self)
  | cleanup idle => exact h

theorem rolled_run (backoff : Duration) (events : List Event) :
    ((create backoff).run events).Rolled := by
  have h0 : (create backoff).Sound ∧ (create backoff).Rolled :=
    ⟨sound_create backoff, fun _ _ h => by simp [create] at h⟩
  generalize create backoff = x at h0
  induction events generalizing x with
  | nil => exact h0.2
  | cons e events ih => exact ih (x.next e) ⟨h0.1.next e, h0.2.next h0.1.wellFormed e⟩

/-- A lane that lists nobody is held by no request. -/
theorem not_held_of_unused (backoff : Duration) (events : List Event) {lane : Lane}
    (hl : ((create backoff).run events).queue.registry.lane? n = some lane)
    (hu : lane.inUse = false) {id : Nat} {s : Submission}
    (hs : ((create backoff).run events).submissions id = some s) : n ∉ s.lane? := by
  intro hn
  have hin := (rolled_run backoff events id s hs).inUse hn hl
  simp [hu] at hin

end Traffic

end Parley.Rest
