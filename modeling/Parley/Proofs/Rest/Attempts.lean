import Parley.Proofs.Rest.Users

/-! No bucket was last asked for a slot in the future. So the ends of idle times that the cleanups of
a queue compute are in the range of the clock as long as they are counted from an instant that is. -/
namespace Parley.Rest

namespace Registry

variable {r : Registry} {now t : Instant}

/-- No bucket was last asked for a slot after `t`. -/
def AttemptedBy (t : Instant) (r : Registry) : Prop :=
  ∀ n b, r.bucketOf? n = some b → b.lastAttempt ≤ t

namespace AttemptedBy

variable {number : Nat}

theorem setLane (h : r.AttemptedBy t) {lane : Lane} (hl : lane.bucket.lastAttempt ≤ t) :
    (r.setLane number lane).AttemptedBy t := by
  intro n b hb
  rw [bucketOf?_setLane] at hb
  split_ifs at hb
  · exact Option.some.inj hb ▸ hl
  · exact h n b hb

theorem resolve (h : r.AttemptedBy t) (hn : now ≤ t) (key : BucketKey) :
    (r.resolve key now).1.AttemptedBy t := by
  rcases r.resolve_cases key now with ⟨number, -, hr⟩ | ⟨made, hr⟩
  · exact hr ▸ h
  · intro n b hb
    rw [hr, bucketOf?, lane?_own] at hb
    split_ifs at hb
    · exact Option.some.inj hb ▸ hn
    · exact h n b hb

theorem ownerOf (h : r.AttemptedBy t) (hn : now ≤ t) (used : Nat) (hash : BucketHash) :
    (r.ownerOf used hash now).1.AttemptedBy t := by
  unfold Registry.ownerOf
  split
  · split_ifs
    · exact h
    · exact h.resolve hn _
  · exact h

theorem unify (h : r.AttemptedBy t) (hw : r.WellFormed) (hn : now ≤ t) (used : Nat)
    (hash : BucketHash) : (r.unify used hash now).1.AttemptedBy t := by
  have ho := h.ownerOf hn used hash
  rcases unify_cases hw used hash now with ⟨-, hashes, hu⟩ | ⟨-, _, ownerLane, -, hl, -, hu⟩
  · exact hu ▸ ho
  · rw [hu]
    refine ho.setLane ?_
    have hsame : ownerLane.bucket.consume.lastAttempt = ownerLane.bucket.lastAttempt := by
      unfold Bucket.consume
      split_ifs <;> rfl
    exact hsame ▸ ho _ _ (bucketOf?_eq_some.mpr ⟨ownerLane, hl, rfl⟩)

end AttemptedBy

end Registry

namespace Queue

variable {q q' : Queue} {now t : Instant}

theorem Edit.attemptedBy (h : Edit now q q') (hw : q.registry.WellFormed) (hn : now ≤ t)
    (hq : q.registry.AttemptedBy t) : q'.registry.AttemptedBy t := by
  cases h with
  | look => exact hq
  | trip until_ => exact hq
  | resolve key => exact hq.resolve hn key
  | unify used hash => exact hq.unify hw hn used hash
  | @serve number lane lane' hl he =>
    refine hq.setLane ?_
    rcases he.lastAttempt_eq with heq | heq
    · exact heq ▸ hq number _ (Registry.bucketOf?_eq_some.mpr ⟨lane, hl, rfl⟩)
    · exact heq ▸ hn

theorem Move.attemptedBy (h : Move now q q') (hw : q.registry.WellFormed) (hn : now ≤ t)
    (hq : q.registry.AttemptedBy t) : q'.registry.AttemptedBy t := by
  cases h with
  | edits h =>
    induction h with
    | refl => exact hq
    | tail hs he ih => exact he.attemptedBy (Edits.wellFormed hs hw) hn ih
  | close reason => exact hq
  | cleanup idle => exact hq

end Queue

namespace Traffic

variable {t : Instant}

theorem attemptedBy_run (backoff : Duration) (events : List Event)
    (ht : ∀ e ∈ events, e.time ≤ t) :
    ((create backoff).run events).queue.registry.AttemptedBy t := by
  refine run_keeps_of_wellFormed (P := fun q => q.registry.AttemptedBy t)
    (Registry.wellFormed_create backoff) events ?_ ?_
  · intro n b h
    cases h
  · intro e he q q' hm hw hq
    exact hm.attemptedBy hw (ht e he) hq

/-- Whatever happens until `t`, the end of an idle time is in the range of the clock, exactly if it is
when counted from `t`. -/
theorem idle_ends_fit_iff (backoff idle : Duration) (t : Instant) :
    (∀ events : List Event, (∀ e ∈ events, e.time ≤ t) → ∀ n b,
        ((create backoff).run events).queue.registry.bucketOf? n = some b →
          (b.lastAttempt.after? idle).isSome) ↔
      t.nanos + idle.nanos < Instant.limit := by
  simp only [Instant.isSome_after_iff]
  constructor
  · intro h
    -- the lane that a lookup at `t` makes counts as attempted then
    have ht : ∀ e ∈ [(⟨t, .find ⟨.get, "/users", none⟩⟩ : Event)], e.time ≤ t := by
      intro e he
      obtain rfl := List.mem_singleton.mp he
      exact Nat.le_refl t.nanos
    exact h _ ht 0 _ rfl
  · intro h events ht n b hb
    have hle : b.lastAttempt.nanos ≤ t.nanos := attemptedBy_run backoff events ht n b hb
    omega

end Traffic

end Parley.Rest
