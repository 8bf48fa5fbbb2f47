import Parley.Proofs.Rest.Holding

/-! Where the account of a response is booked, and whether later requests of its key find it there.
A request may hold a lane that has been merged into another one since: a hash in its response brings
the account to the other lane, but without a hash it stays on the lane that nobody uses any more. -/
namespace Parley.Rest

namespace Registry

variable {r : Registry} {now : Instant}

/-- The lane on which a response is booked that came over a lane, with the registry after that lane
has been looked up. -/
def destination (r : Registry) (used : Nat) (hash : Option BucketHash) (now : Instant) :
    Registry × Nat :=
  match hash with
  | some hash => r.ownerOf used hash now
  | none => (r, used)

/-- The registry after the merge that a response calls for, if it does. -/
def merged (r : Registry) (used : Nat) (hash : Option BucketHash) (now : Instant) :
    Registry × Nat :=
  match hash with
  | some hash => r.unify used hash now
  | none => (r, used)

/-- Later requests of the key find the account on the lane `target` where it is booked: the lane
serves the key already, or the key led to the lane `used` that is redirected now, over a way that is
not too long. A lane is lost when it is redirected to a lane of its own key. -/
def Finds (r : Registry) (key : BucketKey) (used target : Nat) : Prop :=
  if target = used then Serves r.entries key used
  else r.keyOf? target ≠ r.keyOf? used ∧
    (Serves r.entries key target ∨
      ∃ hops last, hops + 1 < hopLimit ∧ Leads r.entries hops key last ∧ r.keyOf? used = some last)

theorem merged_cases (h : r.WellFormed) (used : Nat) (hash : Option BucketHash) (now : Instant) :
    ((r.destination used hash now).2 = used ∧ ∃ hashes, r.merged used hash now =
        ({ (r.destination used hash now).1 with hashes }, used)) ∨
      (r.destination used hash now).2 ≠ used ∧ ∃ lane ownerLane,
        (r.destination used hash now).1.lane? used = some lane ∧
        (r.destination used hash now).1.lane? (r.destination used hash now).2 = some ownerLane ∧
        (r.destination used hash now).1.entries.get? ownerLane.bucket.key =
          some (.owned (r.destination used hash now).2) ∧
        r.merged used hash now =
          ((r.destination used hash now).1.merge lane (r.destination used hash now).2 ownerLane,
            (r.destination used hash now).2) := by
  cases hash with
  | none => exact Or.inl ⟨rfl, r.hashes, rfl⟩
  | some hash => exact unify_cases h used hash now

theorem WellFormed.merged (h : r.WellFormed) (used : Nat) (hash : Option BucketHash)
    (now : Instant) : (r.merged used hash now).1.WellFormed := by
  cases hash with
  | none => exact h
  | some hash => exact h.unify used hash now

theorem WellFormed.destination (h : r.WellFormed) (used : Nat) (hash : Option BucketHash)
    (now : Instant) : (r.destination used hash now).1.WellFormed := by
  cases hash with
  | none => exact h
  | some hash => exact h.ownerOf used hash now

theorem merged_snd (h : r.WellFormed) (used : Nat) (hash : Option BucketHash) (now : Instant) :
    (r.merged used hash now).2 = (r.destination used hash now).2 := by
  rcases merged_cases h used hash now with ⟨hs, hashes, hm⟩ | ⟨-, lane, ownerLane, -, -, -, hm⟩
  · rw [hm, hs]
  · rw [hm]

/-- The lane on which a response is booked exists if the one that it came over does. -/
theorem lane?_merged_isSome (h : r.WellFormed) {used : Nat} (hl : (r.lane? used).isSome)
    (hash : Option BucketHash) (now : Instant) :
    ((r.merged used hash now).1.lane? (r.merged used hash now).2).isSome := by
  obtain ⟨lane, hl⟩ := Option.isSome_iff_exists.mp hl
  have hd : (r.destination used hash now).1.lane? used = some lane := by
    cases hash with
    | none => exact hl
    | some hash => exact h.lane?_ownerOf hl used hash now
  rcases merged_cases h used hash now with ⟨-, hashes, hm⟩ | ⟨-, _, _, -, -, -, hm⟩
  · rw [hm]
    exact Option.isSome_of_eq_some hd
  · rw [hm, merge, lane?_setLane_self]
    rfl

theorem serves_merged_iff (h : r.WellFormed) (used : Nat) (hash : Option BucketHash)
    (key : BucketKey) (now : Instant) :
    Serves (r.merged used hash now).1.entries key (r.destination used hash now).2 ↔
      (r.destination used hash now).1.Finds key used (r.destination used hash now).2 := by
  have hf := h.destination used hash now
  unfold Finds
  rcases merged_cases h used hash now with ⟨hs, hashes, hm⟩ | ⟨hs, lane, ownerLane, hl, ho, he, hm⟩
  · rw [hm, if_pos hs, hs]
  · have hk : (r.destination used hash now).1.keyOf? used = some lane.bucket.key := by
      simp [keyOf?, hl]
    have hko : (r.destination used hash now).1.keyOf? (r.destination used hash now).2 =
        some ownerLane.bucket.key := by
      simp [keyOf?, ho]
    have hr := serves_redirect_iff hf he lane.bucket.key key
    rw [hm, if_neg hs, hk, hko]
    simpa using hr

theorem backoff_merged (r : Registry) (used : Nat) (hash : Option BucketHash) (now : Instant) :
    (r.merged used hash now).1.backoff = r.backoff := by
  cases hash with
  | none => rfl
  | some hash => exact r.backoff_unify used hash now

/-- The bucket of the lane on which a response is booked, as the merge leaves it. -/
theorem lane?_merged (h : r.WellFormed) (used : Nat) (hash : Option BucketHash) (now : Instant)
    {lane : Lane}
    (hl : (r.merged used hash now).1.lane? (r.destination used hash now).2 = some lane) :
    ∃ before, (r.destination used hash now).1.lane? (r.destination used hash now).2 = some before ∧
      lane.bucket = if (r.destination used hash now).2 = used then before.bucket
        else before.bucket.consume := by
  rcases merged_cases h used hash now with ⟨hs, hashes, hm⟩ | ⟨hs, _, ownerLane, -, ho, -, hm⟩
  · rw [hm] at hl
    exact ⟨lane, hl, by rw [if_pos hs]⟩
  · rw [hm, merge, lane?_setLane_self] at hl
    refine ⟨ownerLane, ho, ?_⟩
    rw [if_neg hs, ← Option.some.inj hl]

end Registry

namespace Bucket

/-- The clock can represent all that the booking of a response computes: what the bucket takes in, and
the end of a refusal. -/
def Reaches (b : Bucket) (info : RateLimit) (isRefusal : Bool) (own : Duration)
    (now : Instant) : Prop :=
  b.InRange info now ∧ (isRefusal = true → (now.after? (info.backoff?.getD own)).isSome)

theorem reaches_consume {b : Bucket} {info : RateLimit} {isRefusal : Bool} {own : Duration}
    {now : Instant} : b.consume.Reaches info isRefusal own now ↔ b.Reaches info isRefusal own now := by
  have hsame : b.consume.unlimited = b.unlimited ∧ b.consume.resetAt = b.resetAt := by
    unfold consume
    split <;> exact ⟨rfl, rfl⟩
  simp only [Reaches, InRange, hsame]

end Bucket

namespace Queue

def account (info : RateLimit) (isRefusal : Bool) (backoff : Duration) (now : Instant) :
    List Bucket.Event :=
  ⟨now, .learn info⟩ :: if isRefusal then [⟨now, .refusal (info.backoff?.getD backoff)⟩] else []

theorem charge_some {q q' : Queue} {number : Nat} {info : RateLimit} {isRefusal : Bool}
    {now : Instant} {b : Booked} (h : q.charge number info isRefusal now = (q', some b)) :
    b.lane = number ∧ ∃ lane, q.registry.lane? number = some lane ∧
      q'.registry = q.registry.setLane number
        { lane with
          bucket := lane.bucket.run (account info isRefusal q.registry.backoff now) } := by
  unfold charge at h
  split at h
  · simp at h
  · next lane hl =>
    split at h
    · simp at h
    · next bucket hu =>
      have ha : lane.bucket.absorb info now = bucket := by simp [Bucket.absorb, hu]
      cases isRefusal with
      | false =>
        simp only [Bool.false_eq_true, if_false, Prod.mk.injEq, Option.some.injEq] at h
        obtain ⟨rfl, rfl⟩ := h
        refine ⟨rfl, lane, hl, ?_⟩
        simp [setBucket, Registry.modifyLane_of_some hl, account, Bucket.next, ha]
      | true =>
        simp only [if_true] at h
        split at h
        · simp at h
        · next reset hr =>
          simp only [Prod.mk.injEq, Option.some.injEq] at h
          obtain ⟨rfl, rfl⟩ := h
          refine ⟨rfl, lane, hl, ?_⟩
          simp [setBucket, Registry.modifyLane_of_some hl, account, Bucket.next, ha,
            Bucket.refused, hr]

theorem book_eq (q : Queue) (number : Nat) (key : BucketKey) (r : Response) (now : Instant) :
    q.book number key r now =
      { q with
        registry := (q.registry.merged number
          ((infoOf r).bucket.map fun hash => ⟨hash, key.major⟩) now).1 }.charge
        (q.registry.merged number ((infoOf r).bucket.map fun hash => ⟨hash, key.major⟩) now).2
        (infoOf r) r.isRefusal now := by
  unfold book Registry.merged
  dsimp only
  cases (infoOf r).bucket with
  | none => rfl
  | some hash => rfl

theorem charge_isSome_iff {q : Queue} {number : Nat} {b : Bucket}
    (hb : q.registry.bucketOf? number = some b) (info : RateLimit) (isRefusal : Bool)
    (now : Instant) :
    (q.charge number info isRefusal now).2.isSome ↔
      b.Reaches info isRefusal q.registry.backoff now := by
  obtain ⟨lane, hl, rfl⟩ := Registry.bucketOf?_eq_some.mp hb
  have hnone : lane.bucket.update? info now = none ↔ ¬ lane.bucket.InRange info now :=
    Bucket.update?_eq_none_iff
  unfold charge Bucket.Reaches
  simp only [hl]
  cases hu : lane.bucket.update? info now with
  | none => simp [hnone.mp hu]
  | some bucket =>
    have hr : lane.bucket.InRange info now := by
      by_contra hfar
      simp [hnone.mpr hfar] at hu
    cases isRefusal with
    | false => simp [hr]
    | true =>
      cases ha : now.after? (info.backoff?.getD q.registry.backoff) with
      | none => simp
      | some reset => simp [hr]

/-- A response is booked exactly if the clock can represent what its booking computes. -/
theorem book_isSome_iff (q : Queue) (used : Nat) (key : BucketKey) (r : Response) (now : Instant)
    {b : Bucket} (hb :
      let merged := q.registry.merged used ((infoOf r).bucket.map fun hash => ⟨hash, key.major⟩) now
      merged.1.bucketOf? merged.2 = some b) :
    (q.book used key r now).2.isSome ↔
      b.Reaches (infoOf r) r.isRefusal q.registry.backoff now := by
  rw [book_eq]
  exact (charge_isSome_iff hb (infoOf r) r.isRefusal now).trans
    (by simp only [Registry.backoff_merged])

end Queue

namespace Traffic

/-- The queue when an answer is about to be booked, and the lane on which it will be. -/
def Answer.merged (a : Answer) (q : Queue) (now : Instant) : Queue × Nat :=
  let (registry, lane) := (a.landed q).registry.merged a.lane a.hash? now
  ({ q with registry }, lane)

def Answer.bucket? (a : Answer) (q : Queue) (now : Instant) : Option Bucket :=
  (a.merged q now).1.registry.bucketOf? (a.merged q now).2

variable {x : Traffic} {e : Event} {a : Answer}

theorem Sound.bucket?_isSome (h : x.Sound) (ha : x.answer? e = some a) :
    ∃ b, a.bucket? x.queue e.time = some b := by
  obtain ⟨-, hs, hp⟩ := answer?_eq_some ha
  have hl : Queue.Touches e.time x.queue (a.landed x.queue) :=
    Submission.touches_land x.queue a.id e.time a.lane
  have hw := hl.edits.wellFormed h.wellFormed
  have hused := hl.edits.keeps_lane h.wellFormed
    (h.held a.id a.submission hs a.lane (by simp [Submission.lane?, hp]))
  obtain ⟨lane, hlane⟩ :=
    Option.isSome_iff_exists.mp (Registry.lane?_merged_isSome hw hused a.hash? e.time)
  exact ⟨lane.bucket, Registry.bucketOf?_eq_some.mpr ⟨lane, hlane, rfl⟩⟩

theorem Answer.backoff_merged (a : Answer) (q : Queue) (now : Instant) :
    (a.merged q now).1.registry.backoff = q.registry.backoff :=
  Registry.backoff_merged _ a.lane a.hash? now

theorem Answer.book_isSome_iff {q : Queue} {now : Instant} {b : Bucket}
    (hb : a.bucket? q now = some b) :
    ((a.landed q).book a.lane a.submission.key a.response now).2.isSome ↔
      b.Reaches (Queue.infoOf a.response) a.response.isRefusal q.registry.backoff now :=
  Queue.book_isSome_iff (a.landed q) a.lane a.submission.key a.response now hb

end Traffic

namespace Queue

/-- The lane on which a response is booked takes the whole account of it, a slot less for a merge.
Later requests of the key find it exactly if the lane was found before, or the lane that the request
holds was and has been redirected. -/
theorem later_requests_find_booking_iff (backoff : Duration) (events : List Traffic.Event)
    {id used : Nat} {s : Submission}
    (hs : ((Traffic.create backoff).run events).submissions id = some s)
    (hp : s.phase = .sending used) (r : Response) (now : Instant) :
    let q := ((Traffic.create backoff).run events).queue
    let hash := (infoOf r).bucket.map fun hash => ⟨hash, s.key.major⟩
    let found := (q.registry.destination used hash now).1
    (∃ lane, found.lane? (q.registry.destination used hash now).2 = some lane ∧
      ((q.book used s.key r now).2.isSome ↔
        lane.bucket.Reaches (infoOf r) r.isRefusal q.registry.backoff now)) ∧
      ∀ q' b, q.book used s.key r now = (q', some b) →
        b.lane = (q.registry.destination used hash now).2 ∧
        (∃ before after, found.lane? b.lane = some before ∧ q'.registry.lane? b.lane = some after ∧
          after.bucket = (if b.lane = used then before.bucket else before.bucket.consume).run
            (account (infoOf r) r.isRefusal q.registry.backoff now)) ∧
        ((q'.registry.resolve s.key now).2 = b.lane ↔ found.Finds s.key used b.lane) := by
  dsimp only
  obtain ⟨hw, hheld⟩ := Traffic.sound_run backoff events
  have hused := hheld id s hs used (by simp [Submission.lane?, hp])
  generalize ((Traffic.create backoff).run events).queue = q at hw hused
  have hiff {b : Bucket} := @book_isSome_iff q used s.key r now b
  rw [book_eq] at hiff ⊢
  generalize (infoOf r).bucket.map (fun hash => (⟨hash, s.key.major⟩ : BucketHash)) = hash at hiff
  have hlane := Registry.merged_snd hw used hash now
  constructor
  · obtain ⟨lane, hl⟩ := Option.isSome_iff_exists.mp (Registry.lane?_merged_isSome hw hused hash now)
    have hbooked := hiff (Registry.bucketOf?_eq_some.mpr ⟨lane, hl, rfl⟩)
    rw [hlane] at hl
    obtain ⟨before, hbefore, hbucket⟩ := Registry.lane?_merged hw used hash now hl
    refine ⟨before, hbefore, hbooked.trans ?_⟩
    rw [hbucket]
    split_ifs
    · exact Iff.rfl
    · exact Bucket.reaches_consume
  · intro q' b h
    have hm := hw.merged used hash now
    obtain ⟨hb, lane, hl, hr⟩ := charge_some h
    rw [hlane] at hb hl hr
    obtain ⟨before, hbefore, hbucket⟩ := Registry.lane?_merged hw used hash now hl
    refine ⟨hb, ⟨before, _, hb ▸ hbefore, by rw [hr, hb, Registry.lane?_setLane_self], ?_⟩, ?_⟩
    · simp only [hbucket, hb, Registry.backoff_merged]
    · have hlt : b.lane < q'.registry.nextLane := by
        rw [hr, hb]
        exact hm.lt_nextLane hl
      rw [Registry.resolve_eq_iff hlt, hr, hb]
      exact Registry.serves_merged_iff hw used hash s.key now

def fourLeft (hash : Option String) : Response where
  status := 200
  rateLimit := { RateLimit.silent with
    limit := some 5, remaining := some 4, resetAfter := some (.ofSecs 10), bucket := hash }
  body := []

def waitFiveSeconds : Response :=
  ⟨429, { RateLimit.silent with retryAfter := some (.ofSecs 5) }, []⟩

/-- The lane of GET owns a hash, and the answer to request 2 reveals that POST has the same one,
while request 3 still holds a slot of the lane that POST had. -/
def mergedInFlight : List Traffic.Event :=
  let get := Traffic.plainRequest .get "/users"
  let post := Traffic.plainRequest .post "/users"
  Traffic.sendOf 0 get ++ [⟨⟨0⟩, .wake 0 (.answered (.ok (fourLeft (some "H"))))⟩] ++
    Traffic.sendOf 1 post ++ [⟨⟨0⟩, .wake 1 (.answered (.ok (fourLeft none)))⟩] ++
    Traffic.sendOf 2 post ++ Traffic.sendOf 3 post ++
    [⟨⟨0⟩, .wake 2 (.answered (.ok (fourLeft (some "H"))))⟩]

theorem mergedInFlight_finds_booking_with_hash :
    let x := (Traffic.create (.ofMillis 750)).run mergedInFlight
    ∃ s, x.submissions 3 = some s ∧ s.phase = .sending 1 ∧
      ∃ q' b, x.queue.book 1 s.key (fourLeft (some "H")) ⟨1⟩ = (q', some b) ∧
        (q'.registry.resolve s.key ⟨1⟩).2 = b.lane := by
  refine ⟨_, rfl, rfl, _, _, rfl, ?_⟩
  have h := later_requests_find_booking_iff (.ofMillis 750) mergedInFlight
    (show ((Traffic.create (.ofMillis 750)).run mergedInFlight).submissions 3 = some _ from rfl) rfl
    (fourLeft (some "H")) ⟨1⟩
  refine (h.2 _ _ rfl).2.2.mpr ?_
  have hne : ¬ (0 : Nat) = 1 := by decide
  refine (if_neg hne).mpr ⟨by decide, Or.inr ⟨0, _, by decide, .here _, rfl⟩⟩

/-- Without a hash, a refusal of request 3 stays on the lane that POST had, and the one that POST
has now goes on granting. -/
theorem mergedInFlight_loses_refusal_without_hash :
    let x := (Traffic.create (.ofMillis 750)).run mergedInFlight
    ∃ s, x.submissions 3 = some s ∧ s.phase = .sending 1 ∧
      ∃ q' b lane, x.queue.book 1 s.key waitFiveSeconds ⟨1⟩ = (q', some b) ∧ b.lane = 1 ∧
        (q'.registry.resolve s.key ⟨1⟩).2 = 0 ∧ q'.registry.lane? 0 = some lane ∧
        lane.bucket.grants ⟨2⟩ := by
  exact ⟨_, rfl, rfl, _, _, _, rfl, rfl, rfl, rfl, rfl⟩

end Queue

end Parley.Rest
