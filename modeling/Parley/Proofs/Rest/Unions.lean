import Parley.Proofs.Rest.Booking

/-! What a response does to the redirects and to the owners of hashes. A hash that is new is owned by
the key of the lane; otherwise the owner is looked up, and the key is redirected to where that ends,
unless its lane is there already. -/
namespace Parley.Rest

namespace Registry

variable {r : Registry} {key : BucketKey}

theorem keyOf_modifyLane (r : Registry) (number : Nat) {f : Lane → Lane}
    (hf : ∀ lane : Lane, (f lane).bucket.key = lane.bucket.key) (other : Nat) :
    (r.modifyLane number f).keyOf? other = r.keyOf? other := by
  cases hl : r.lane? number with
  | none => rw [modifyLane_of_none hl]
  | some lane =>
    rw [modifyLane_of_some hl]
    exact keyOf_setLane hl (hf lane) other

/-- What a response over the lane `used` of `key` does to the redirects and to the owners of hashes:
the owner of the hash has been looked up in `found`, and `r'` is the end. -/
inductive Unites (r : Registry) (key : BucketKey) (used : Nat) (found r' : Registry) :
    Option BucketHash → Prop
  | silent (hf : found.entries = r.entries) (he : r'.entries = r.entries)
      (hh : r'.hashes = r.hashes) :
      Unites r key used found r' none
  /-- The key is the first one that is seen with the hash. -/
  | claims {hash : BucketHash} (ho : r.hashes.get? hash = none) (hf : found.entries = r.entries)
      (he : r'.entries = r.entries) (hh : r'.hashes = r.hashes.insert hash key) :
      Unites r key used found r' (some hash)
  /-- The key or its lane serves the owner of the hash already. -/
  | agrees {hash : BucketHash} {owner : BucketKey} (ho : r.hashes.get? hash = some owner)
      (hs : owner = key ∨ EndsAt r.entries owner key ∧ r.entries.get? key = some (.owned used))
      (hf : found.entries = r.entries) (he : r'.entries = r.entries) (hh : r'.hashes = r.hashes) :
      Unites r key used found r' (some hash)
  /-- The key is redirected to the home of the owner. -/
  | merges {hash : BucketHash} {owner home : BucketKey} {number : Nat}
      (ho : r.hashes.get? hash = some owner) (hne : owner ≠ key) (ht : Home r.entries owner home)
      (hd : r.entries.get? home ≠ some (.owned used))
      (hk : found.keyOf? number = some home)
      (hf : ∀ k, found.entries.get? k =
        if home = k then some (.owned number) else r.entries.get? k)
      (he : r'.entries = found.entries.insert key (.redirect home)) (hh : r'.hashes = r.hashes) :
      Unites r key used found r' (some hash)

theorem Unites.congr {r₁ r₁' found r' : Registry} {used : Nat} {hash : Option BucketHash}
    (h : Unites r key used found r' hash) (he : r₁.entries = r.entries)
    (hh : r₁.hashes = r.hashes) (he' : r₁'.entries = r'.entries)
    (hh' : r₁'.hashes = r'.hashes) : Unites r₁ key used found r₁' hash := by
  cases h with
  | silent hf hr hn => exact .silent (by rw [hf, he]) (by rw [he', hr, he]) (by rw [hh', hn, hh])
  | claims ho hf hr hn =>
    exact .claims (by rw [hh, ho]) (by rw [hf, he]) (by rw [he', hr, he]) (by rw [hh', hn, hh])
  | agrees ho hs hf hr hn =>
    exact .agrees (by rw [hh, ho]) (by rwa [he]) (by rw [hf, he]) (by rw [he', hr, he])
      (by rw [hh', hn, hh])
  | merges ho hne ht hd hk hf hr hn =>
    exact .merges (by rw [hh, ho]) hne (by rwa [he]) (by rwa [he]) hk (by rwa [he])
      (by rw [he', hr]) (by rw [hh', hn, hh])

theorem WellFormed.unites_unify (h : r.WellFormed) {used : Nat} (hk : r.keyOf? used = some key)
    (hash : BucketHash) (now : Instant) :
    Unites r key used (r.ownerOf used hash now).1 (r.unify used hash now).1 (some hash) := by
  obtain ⟨lane, hl, rfl⟩ := Option.map_eq_some_iff.mp hk
  cases ho : r.hashes.get? hash with
  | none =>
    refine .claims ho ?_ ?_ ?_ <;> simp [Registry.unify, Registry.ownerOf, hl, ho]
  | some owner =>
    by_cases hne : owner = lane.bucket.key
    · refine .agrees ho (Or.inl hne) ?_ ?_ ?_ <;>
        simp [Registry.unify, Registry.ownerOf, hl, ho, hne]
    · obtain ⟨home, ht, hr⟩ := r.exists_home owner now
      have hf : (r.ownerOf used hash now).1 = (r.laneOf home now).1 := by
        simp [Registry.ownerOf, hl, ho, hne, hr]
      rw [hf]
      by_cases hn : (r.laneOf home now).2 = used
      · have hown := (h.laneOf_eq_iff hk home now).mp hn
        have hu : r.unify used hash now = (r, used) := by
          simp [Registry.unify, hl, ho, hne, hr, laneOf_of_owned hown]
        have hhome : home = lane.bucket.key :=
          Option.some.inj ((h.keyOf_eq hown).symm.trans hk)
        have hs : EndsAt r.entries owner lane.bucket.key := by
          rcases ht with ht | ⟨-, rfl⟩
          · exact hhome ▸ ht
          · exact absurd hhome hne
        exact .agrees ho (Or.inr ⟨hs, hhome ▸ hown⟩) (by rw [laneOf_of_owned hown]) (by rw [hu])
          (by rw [hu])
      · have hd : r.entries.get? home ≠ some (.owned used) :=
          fun hown => hn ((h.laneOf_eq_iff hk home now).mpr hown)
        have hk' := h.keyOf_laneOf_self home now
        obtain ⟨ownerLane, hol, hok⟩ := Option.map_eq_some_iff.mp hk'
        have hu : (r.unify used hash now).1 =
            (r.laneOf home now).1.merge lane (r.laneOf home now).2 ownerLane := by
          simp [Registry.unify, Registry.merge, hl, ho, hne, hr, hn, hol]
        refine .merges ho hne ht hd hk' (r.get?_laneOf home now) ?_ ?_
        · rw [hu, entries_merge, hok]
        · rw [hu]
          exact r.hashes_laneOf home now

theorem WellFormed.unites_merged (h : r.WellFormed) {used : Nat} (hk : r.keyOf? used = some key)
    (hash : Option BucketHash) (now : Instant) :
    Unites r key used (r.destination used hash now).1 (r.merged used hash now).1 hash := by
  cases hash with
  | none => exact .silent rfl rfl rfl
  | some hash => exact h.unites_unify hk hash now

end Registry

namespace Queue

theorem tables_charge (q : Queue) (lane : Nat) (info : RateLimit) (isRefusal : Bool)
    (now : Instant) :
    (q.charge lane info isRefusal now).1.registry.entries = q.registry.entries ∧
      (q.charge lane info isRefusal now).1.registry.hashes = q.registry.hashes := by
  unfold charge
  split
  · exact ⟨rfl, rfl⟩
  · split
    · exact ⟨rfl, rfl⟩
    · cases isRefusal with
      | false => exact ⟨rfl, rfl⟩
      | true =>
        dsimp only [if_true]
        cases now.after? (info.backoff?.getD q.registry.backoff) with
        | none => exact ⟨rfl, rfl⟩
        | some reset => exact ⟨rfl, rfl⟩

end Queue

namespace Traffic

open Queue (Touches)

/-- What lookups, changes of a lane and cleanups keep, an event without a response keeps. -/
theorem keeps_of_silent {x : Traffic} {e : Event} (hn : x.answer? e = none) {P : Registry → Prop}
    (hr : ∀ r key, P r → P (r.resolve key e.time).1)
    (hs : ∀ r number lane lane', r.lane? number = some lane →
      lane'.bucket.key = lane.bucket.key → P r → P (r.setLane number lane'))
    (hc : ∀ r idle, e.act = .cleanup idle → P r → P (r.cleanup idle e.time).1)
    (h : P x.queue.registry) : P (x.next e).queue.registry := by
  have ht {q : Queue} (ht : Touches e.time x.queue q) : P q.registry := by
    induction ht with
    | refl => exact h
    | tail _ hstep ih =>
      cases hstep with
      | look => exact ih
      | resolve key => exact hr _ key ih
      | serve hl hb => exact hs _ _ _ _ hl hb.key_eq ih
  rcases x.next_cases e with ⟨a, ha⟩ | hq | ⟨reason, hq⟩ | ⟨until_, hq⟩ | ⟨idle, ha, hq⟩
  · simp [hn] at ha
  · exact ht hq
  · rw [hq]
    exact h
  · rw [hq]
    exact h
  · rw [hq]
    exact hc _ idle ha h

def lookedUp (x : Traffic) (e : Event) : Registry :=
  match x.answer? e with
  | some a => ((a.landed x.queue).registry.destination a.lane a.hash? e.time).1
  | none => x.queue.registry

variable {x : Traffic} {e : Event} {a : Answer}

theorem keyOf_landed (a : Answer) (q : Queue) (number : Nat) :
    (a.landed q).registry.keyOf? number = q.registry.keyOf? number := by
  have hk : ∀ lane : Lane, (lane.land a.id).bucket.key = lane.bucket.key := fun _ => rfl
  exact Registry.keyOf_modifyLane q.registry a.lane hk number

theorem Sound.unites (h : x.Sound) (ha : x.answer? e = some a) :
    ∃ key, x.queue.registry.keyOf? a.lane = some key ∧
      Registry.Unites x.queue.registry key a.lane (x.lookedUp e) (x.next e).queue.registry
        a.hash? := by
  obtain ⟨-, hs, hp⟩ := answer?_eq_some ha
  have hl := h.held a.id a.submission hs a.lane (by simp [Submission.lane?, hp])
  obtain ⟨lane, hl⟩ := Option.isSome_iff_exists.mp hl
  have hk : x.queue.registry.keyOf? a.lane = some lane.bucket.key := by
    simp [Registry.keyOf?, hl]
  have hw : (a.landed x.queue).registry.WellFormed :=
    Queue.Edits.wellFormed (Submission.touches_land x.queue a.id e.time a.lane).edits h.wellFormed
  have hu := hw.unites_merged ((keyOf_landed a x.queue a.lane).trans hk) a.hash? e.time
  have hf : x.lookedUp e =
      ((a.landed x.queue).registry.destination a.lane a.hash? e.time).1 := by
    simp [lookedUp, ha]
  refine ⟨lane.bucket.key, hk, ?_⟩
  have ht := Queue.tables_charge { a.landed x.queue with
    registry := ((a.landed x.queue).registry.merged a.lane a.hash? e.time).1 }
    ((a.landed x.queue).registry.merged a.lane a.hash? e.time).2
    (Queue.infoOf a.response) a.response.isRefusal e.time
  rw [next_of_answer ha, hf, Queue.book_eq]
  exact hu.congr rfl rfl ht.1 ht.2

end Traffic

end Parley.Rest
