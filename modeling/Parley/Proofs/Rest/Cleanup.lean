import Parley.Proofs.Rest.Booking

/-! A cleanup keeps the lanes that are in use or have been asked for a slot of late, with the ways
that lead to them. It does not look at the end of their windows: a lane that is dropped takes its
limit along. -/
namespace Parley.Rest

variable {entries entries' : Table BucketKey Entry} {key last : BucketKey} {hops number : Nat}

namespace Leads

theorem contains_first (h : Leads entries hops key last) (hl : entries.contains last) :
    entries.contains key := by
  cases h with
  | here => exact hl
  | hop hk _ => simp [Table.contains, hk]

/-- A way goes on through the entries that are kept, if redirects to keys with an entry are. -/
theorem filter (hd : entries.Distinct) {keep : BucketKey → Entry → Bool}
    (hk : ∀ k target, entries.contains target → keep k (.redirect target) = true)
    (h : Leads entries hops key last) (hl : entries.contains last) :
    Leads (entries.filter keep) hops key last := by
  induction h with
  | here key => exact .here key
  | hop he ht ih =>
    refine .hop ?_ (ih hl)
    rw [Table.get?_filter hd, he, Option.filter_some_pos]
    exact hk _ _ (ht.contains_first hl)

end Leads

namespace Registry

variable {r : Registry} {now : Instant} {idle : Duration}

theorem Serves.filter (hd : entries.Distinct) {keep : BucketKey → Entry → Bool}
    (hk : ∀ k target, entries.contains target → keep k (.redirect target) = true)
    (ho : ∀ k, keep k (.owned number) = true) (h : Serves entries key number) :
    Serves (entries.filter keep) key number := by
  obtain ⟨hops, last, hlt, hl, hlast⟩ := h
  refine ⟨hops, last, hlt, hl.filter hd hk ?_, ?_⟩
  · simp [Table.contains, hlast]
  · rw [Table.get?_filter hd, hlast, Option.filter_some_pos (ho last)]

theorem Serves.mono (h : Serves entries' key number)
    (hsub : ∀ k e, entries'.get? k = some e → entries.get? k = some e) :
    Serves entries key number := by
  obtain ⟨hops, last, hlt, hl, hlast⟩ := h
  exact ⟨hops, last, hlt, hl.mono fun k t => hsub k (.redirect t), hsub _ _ hlast⟩

theorem Serves.dropDanglingRounds (rounds : Nat) (hd : entries.Distinct)
    (h : Serves entries key number) :
    Serves (Registry.dropDanglingRounds rounds entries) key number := by
  induction rounds generalizing entries with
  | zero => exact h
  | succ rounds ih =>
    refine ih (hd.filter _) (h.filter hd ?_ ?_)
    · intro _ _ ht
      exact ht
    · intro _
      rfl

theorem get?_of_cleanup (hd : r.entries.Distinct) {entry : Entry}
    (h : (r.cleanup idle now).1.entries.get? key = some entry) :
    r.entries.get? key = some entry ∧ r.isStale idle now entry = false := by
  have hm := mem_dropDanglingRounds (Table.mem_of_get? h)
  obtain ⟨hm, hkeep⟩ := List.mem_filter.mp hm
  exact ⟨Table.get?_of_mem hd hm, by simpa using hkeep⟩

/-- A cleanup drops the ways to stale lanes and no others. -/
theorem serves_cleanup_iff (hd : r.entries.Distinct) :
    Serves (r.cleanup idle now).1.entries key number ↔
      Serves r.entries key number ∧ r.isStale idle now (.owned number) = false := by
  constructor
  · intro h
    have ⟨_, _, _, _, hlast⟩ := h
    exact ⟨h.mono fun k e he => (get?_of_cleanup hd he).1, (get?_of_cleanup hd hlast).2⟩
  · rintro ⟨hs, hn⟩
    refine (hs.filter hd ?_ ?_).dropDanglingRounds _ (hd.filter _)
    · intro _ _ _
      rfl
    · intro _
      simp [hn]

theorem distinct_resolve (h : r.entries.Distinct) (key : BucketKey) (now : Instant) :
    (r.resolve key now).1.entries.Distinct := by
  rcases r.resolve_cases key now with ⟨_, -, hr⟩ | ⟨made, hr⟩
  · rw [hr]
    exact h
  · rw [hr]
    exact h.insert made _

theorem distinct_unify (hw : r.WellFormed) (h : r.entries.Distinct) (number : Nat)
    (hash : BucketHash) (now : Instant) : (r.unify number hash now).1.entries.Distinct := by
  have ho : (r.ownerOf number hash now).1.entries.Distinct := by
    unfold ownerOf
    split
    · split_ifs
      · exact h
      · exact distinct_resolve h _ now
    · exact h
  rcases unify_cases hw number hash now with ⟨-, _, hu⟩ | ⟨-, lane, _, -, -, -, hu⟩
  · rw [hu]
    exact ho
  · rw [hu]
    exact ho.insert _ _

theorem distinct_dropDanglingRounds (rounds : Nat) (h : entries.Distinct) :
    (dropDanglingRounds rounds entries).Distinct := by
  induction rounds generalizing entries with
  | zero => exact h
  | succ rounds ih => exact ih (h.filter _)

end Registry

namespace Queue

variable {q q' : Queue} {now : Instant}

theorem Edit.distinct (h : Edit now q q') (hw : q.registry.WellFormed)
    (hd : q.registry.entries.Distinct) : q'.registry.entries.Distinct := by
  cases h with
  | look => exact hd
  | trip until_ => exact hd
  | resolve key => exact Registry.distinct_resolve hd key now
  | unify number hash => exact Registry.distinct_unify hw hd number hash now
  | serve hl hb => exact hd

theorem Move.distinct (h : Move now q q') (hw : q.registry.WellFormed)
    (hd : q.registry.entries.Distinct) : q'.registry.entries.Distinct := by
  cases h with
  | edits h =>
    induction h with
    | refl => exact hd
    | tail hs he ih => exact he.distinct (Edits.wellFormed hs hw) ih
  | close reason => exact hd
  | cleanup idle => exact Registry.distinct_dropDanglingRounds _ (hd.filter _)

end Queue

theorem Traffic.distinct_run (backoff : Duration) (events : List Traffic.Event) :
    ((Traffic.create backoff).run events).queue.registry.entries.Distinct := by
  refine Traffic.run_keeps_of_wellFormed (P := fun q => q.registry.entries.Distinct)
    (Registry.wellFormed_create backoff) events Table.distinct_empty ?_
  intro e _ q q' hm hw hd
  exact hm.distinct hw hd

namespace Queue

variable {q : Queue} {now : Instant} {lane : Lane}

/-- What the bucket of a key would answer to a request for a slot. -/
def admission? (q : Queue) (key : BucketKey) (now : Instant) : Option Admission :=
  (q.bucket? key now).2.map fun bucket => (bucket.tryAdmit now).2

theorem admission?_of_serves (h : Registry.Serves q.registry.entries key number)
    (hl : q.registry.lane? number = some lane) :
    q.admission? key now = some (lane.bucket.tryAdmit now).2 := by
  simp [admission?, bucket?, Registry.resolve_of_serves h, hl]

theorem tryAdmit_create (key : BucketKey) (backoff : Duration) (now : Instant) :
    ((Bucket.create key backoff now).tryAdmit now).2 = .granted := rfl

theorem admission?_of_unserved (h : ∀ number, ¬ Registry.Serves q.registry.entries key number) :
    q.admission? key now = some .granted := by
  rcases q.registry.resolve_cases key now with ⟨number, hs, -⟩ | ⟨made, hr⟩
  · exact absurd hs (h number)
  · simp [admission?, bucket?, hr, Registry.lane?_own, Lane.create, tryAdmit_create]

/-- Only a lane that is there already refuses. -/
theorem serves_of_refused (hw : q.registry.WellFormed) {until_ : Instant}
    (h : q.admission? key now = some (.waitUntil until_)) :
    ∃ number lane, Registry.Serves q.registry.entries key number ∧
      q.registry.lane? number = some lane := by
  by_cases hn : ∀ number, ¬ Registry.Serves q.registry.entries key number
  · rw [admission?_of_unserved hn] at h
    simp at h
  · obtain ⟨number, hs⟩ := not_forall.mp hn
    have hs := not_not.mp hs
    have ⟨_, _, _, _, hlast⟩ := hs
    obtain ⟨lane, hl, -⟩ := Option.map_eq_some_iff.mp (hw.keyOf_eq hlast)
    exact ⟨number, lane, hs, hl⟩

theorem stale_owned_eq (hl : q.registry.lane? number = some lane) (idle : Duration) :
    q.registry.isStale idle now (.owned number) =
      (!lane.inUse && lane.bucket.isQuiet now idle) := by
  simp only [Registry.isStale, hl, Lane.isIdle, Lane.inUse]
  cases lane.line.isEmpty <;> simp

/-- A refusal outlasts a cleanup exactly if the lane that refuses is in use or has been asked for a
slot during the idle time. Else the key has a new lane next, which grants. -/
theorem refusal_after_cleanup (backoff : Duration) (events : List Traffic.Event)
    (key : BucketKey) (now : Instant) (idle : Duration) (until_ : Instant) :
    let q := ((Traffic.create backoff).run events).queue
    q.admission? key now = some (.waitUntil until_) →
      ∃ lane, q.registry.lane? (q.registry.resolve key now).2 = some lane ∧
        (q.cleanup idle now).1.admission? key now =
          if !lane.inUse && lane.bucket.isQuiet now idle then some .granted
          else some (.waitUntil until_) := by
  have hd := Traffic.distinct_run backoff events
  have hw := (Traffic.sound_run backoff events).wellFormed
  generalize ((Traffic.create backoff).run events).queue = q at hd hw
  intro _ h
  obtain ⟨number, lane, hs, hl⟩ := serves_of_refused hw h
  have hr := Registry.resolve_of_serves hs now
  have hl' : (q.cleanup idle now).1.registry.lane? number = some lane := hl
  refine ⟨lane, by rw [hr]; exact hl, ?_⟩
  rw [← stale_owned_eq hl idle]
  cases hn : q.registry.isStale idle now (.owned number) with
  | true =>
    apply admission?_of_unserved
    intro other ho
    obtain ⟨ho, hkept⟩ := (Registry.serves_cleanup_iff hd).mp ho
    -- before the cleanup the key led to one lane, and that one is stale
    rw [Registry.resolve_of_serves ho, Prod.mk.injEq] at hr
    rw [hr.2, hn] at hkept
    contradiction
  | false =>
    have hs' := (Registry.serves_cleanup_iff hd).mpr ⟨hs, hn⟩
    rw [admission?_of_serves hs' hl', ← admission?_of_serves hs hl]
    exact h

def refusedOnce : List Traffic.Event :=
  Traffic.sendOf 0 ⟨.get, .fixed "/users", none, ⟨.ofSecs 15, .never⟩⟩ ++
    [⟨⟨0⟩, .wake 0 (.answered (.ok waitFiveSeconds))⟩]

theorem refusedOnce_refused_after_cleanup :
    let q := ((Traffic.create (.ofMillis 750)).run refusedOnce).queue
    let key : BucketKey := ⟨.get, "/users", none⟩
    q.admission? key (.ofMillis 1000) = some (.waitUntil (.ofMillis 5000)) ∧
      (q.cleanup (.ofSecs 2) (.ofMillis 1000)).1.admission? key (.ofMillis 1000) =
        some (.waitUntil (.ofMillis 5000)) := by
  have hb : (((Traffic.create (.ofMillis 750)).run refusedOnce).queue.admission?
      ⟨.get, "/users", none⟩ (.ofMillis 1000)) = some (.waitUntil (.ofMillis 5000)) := rfl
  refine ⟨hb, ?_⟩
  obtain ⟨lane, hl, ha⟩ := refusal_after_cleanup (.ofMillis 750) refusedOnce
    ⟨.get, "/users", none⟩ (.ofMillis 1000) (.ofSecs 2) (.ofMillis 5000) hb
  obtain rfl := Option.some.inj (hl.symm.trans (show _ = some _ from rfl))
  exact ha

/-- A cleanup with a shorter idle time drops the lane, and the key is granted a slot four seconds
before the end of its wait. -/
theorem refusedOnce_granted_after_cleanup :
    let q := ((Traffic.create (.ofMillis 750)).run refusedOnce).queue
    let key : BucketKey := ⟨.get, "/users", none⟩
    q.admission? key (.ofMillis 1000) = some (.waitUntil (.ofMillis 5000)) ∧
      (q.cleanup (.ofMillis 500) (.ofMillis 1000)).1.admission? key (.ofMillis 1000) =
        some .granted :=
  ⟨rfl, rfl⟩

end Queue

end Parley.Rest
