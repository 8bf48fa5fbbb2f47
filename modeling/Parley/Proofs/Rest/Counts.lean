import Parley.Proofs.Rest.Windows

/-! The counts of a bucket. A bucket has no more slots left than its window has, and it knows when it
refills if a response leaves none. Only a response that is broken off, over an end that no clock can
represent or compare, breaks that: its limit has been learned by then, and the count not yet held down
to it. -/
namespace Parley.Rest

namespace Bucket

variable {b b' : Bucket} {now : Instant} {info : RateLimit} {e : Event}

/-- A bucket that is limited after a response has learned from it. -/
theorem learn_of_update (h : b.update? info now = some b') (hu : b'.unlimited = false) :
    b' = b.learn info (announced info now) now := by
  rcases b.update?_cases info now with ⟨hb, hs⟩ | ⟨-, hs | hs | hs⟩
  · rw [hs, Option.some.injEq] at h
    rw [← h, hb] at hu
    simp at hu
  · rw [hs, Option.some.injEq] at h
    simp [← h] at hu
  · rw [hs, Option.some.injEq] at h
    exact h.symm
  · simp [hs] at h

/-- An empty bucket that has learned from a response knows when it refills. -/
theorem isSome_resetAt_learn (b : Bucket) (info : RateLimit) (t : Option Instant) (now : Instant)
    (he : (b.learn info t now).remaining = 0) : (b.learn info t now).resetAt.isSome := by
  simp only [learn] at he ⊢
  rw [he]
  cases t with
  | some new => cases b.resetAt <;> rfl
  | none => cases b.resetAt <;> rfl

/-- An empty bucket does not know when it refills after a response exactly if the response has been
broken off and the bucket did not know it before. -/
theorem resetAt_absorb_eq_none_iff (hu : (b.absorb info now).unlimited = false)
    (he : (b.absorb info now).remaining = 0) :
    (b.absorb info now).resetAt = none ↔ b.update? info now = none ∧ b.resetAt = none := by
  cases h : b.update? info now with
  | none =>
    rw [absorb_of_broken_off h]
    simp [learnLimit]
  | some b' =>
    rw [absorb_of_update h] at hu he ⊢
    have hsome : b'.resetAt.isSome := by
      rw [learn_of_update h hu] at he ⊢
      exact isSome_resetAt_learn b info _ now he
    simp [Option.isSome_iff_ne_none.mp hsome]

/-- A response that is broken off leaves a limit below the count. -/
def Overdraws (b : Bucket) (e : Event) : Prop :=
  match e.act with
  | .learn info =>
    b.update? info e.time = none ∧ (info.limit.map UInt32.toNat).getD b.limit < b.remaining
  | _ => False

/-- An event takes the counts out of range exactly if it overdraws the bucket. -/
theorem remaining_le_limit_next_iff (h : b.remaining ≤ b.limit) :
    (b.next e).remaining ≤ (b.next e).limit ↔ ¬ b.Overdraws e := by
  by_cases hr : ∀ info, e.act = .learn info → b.InRange info e.time
  · refine iff_of_true (remaining_le_limit_next h hr) ?_
    unfold Overdraws
    split
    · next info ha => exact fun hd => update?_eq_none_iff.mp hd.1 (hr info ha)
    · exact id
  · simp only [not_forall] at hr
    obtain ⟨info, ha, hfar⟩ := hr
    have hn := update?_of_far hfar
    simp only [next, ha, absorb_of_broken_off hn, Overdraws, hn, learnLimit]
    simp

/-- A count as it is reported: zero if it does not fit. -/
def reported (n : Nat) : UInt32 := if n < UInt32.size then UInt32.ofNat n else 0

theorem toNat_reported {n : Nat} (h : n < UInt32.size) : (reported n).toNat = n := by
  rw [reported, if_pos h, UInt32.toNat_ofNat_of_lt' h]

structure Narrow (b : Bucket) : Prop where
  remaining : b.remaining < UInt32.size
  limit : b.limit < UInt32.size

theorem narrow_create (key : BucketKey) (backoff : Duration) (start : Instant) :
    (create key backoff start).Narrow := by
  have hone : 1 < UInt32.size := by decide
  exact ⟨hone, hone⟩

/-- A count that a response may give. -/
theorem getD_lt {n : Nat} (h : n < UInt32.size) (count : Option UInt32) :
    (count.map UInt32.toNat).getD n < UInt32.size := by
  cases count with
  | none => exact h
  | some c => exact c.toNat_lt

theorem Narrow.refill (h : b.Narrow) (now : Instant) : (b.refill now).Narrow := by
  unfold Bucket.refill
  split
  · split
    · exact ⟨h.limit, h.limit⟩
    · exact h
  · exact h

theorem Narrow.tryAdmit (h : b.Narrow) (now : Instant) : (b.tryAdmit now).1.Narrow := by
  have hb : Narrow { b with lastAttempt := now } := ⟨h.remaining, h.limit⟩
  have hr := hb.refill now
  unfold Bucket.tryAdmit
  dsimp only at hr ⊢
  split
  · exact hb
  · split
    · exact ⟨Nat.lt_of_le_of_lt (Nat.sub_le _ 1) hr.remaining, hr.limit⟩
    · exact ⟨hr.remaining, hr.limit⟩

theorem Narrow.learn (h : b.Narrow) (info : RateLimit) (t : Option Instant) (now : Instant) :
    (b.learn info t now).Narrow := by
  have hl := getD_lt h.limit info.limit
  exact ⟨Nat.lt_of_le_of_lt (Nat.min_le_right _ _) hl, hl⟩

theorem Narrow.absorb (h : b.Narrow) (info : RateLimit) (now : Instant) :
    (b.absorb info now).Narrow := by
  rcases b.update?_cases info now with ⟨-, hs⟩ | ⟨-, hs | hs | hs⟩
  · rw [absorb_of_update hs]
    exact h
  · rw [absorb_of_update hs]
    exact ⟨h.remaining, h.limit⟩
  · rw [absorb_of_update hs]
    exact h.learn info _ now
  · rw [absorb_of_broken_off hs]
    exact ⟨h.remaining, getD_lt h.limit info.limit⟩

theorem Narrow.next (h : b.Narrow) (e : Event) : (b.next e).Narrow := by
  obtain ⟨time, act⟩ := e
  cases act with
  | ask => exact h.tryAdmit time
  | learn info => exact h.absorb info time
  | refusal wait =>
    have hzero : 0 < UInt32.size := by decide
    simp only [Bucket.next, refused]
    split
    · exact ⟨hzero, h.limit⟩
    · exact ⟨hzero, h.limit⟩
  | consume =>
    simp only [Bucket.next, consume]
    split
    · exact h
    · exact ⟨Nat.lt_of_le_of_lt (Nat.sub_le _ 1) h.remaining, h.limit⟩
  | refund =>
    simp only [Bucket.next, refund]
    split
    · exact h
    · exact ⟨Nat.lt_of_le_of_lt (Nat.min_le_right _ _) h.limit, h.limit⟩

theorem Narrow.run (h : b.Narrow) (events : List Event) : (b.run events).Narrow := by
  induction events generalizing b with
  | nil => exact h
  | cons e events ih => exact ih (h.next e)

theorem remaining_le_limit_run_iff (h : b.remaining ≤ b.limit) (history : List Event) :
    (∀ before, before <+: history → (b.run before).remaining ≤ (b.run before).limit) ↔
      ∀ before e, before ++ [e] <+: history → ¬ (b.run before).Overdraws e := by
  constructor
  · intro hin before e hp
    have hbefore := hin before ((List.prefix_append before [e]).trans hp)
    have hafter := hin (before ++ [e]) hp
    rw [run_snoc] at hafter
    exact (remaining_le_limit_next_iff hbefore).mp hafter
  · intro hn before
    induction before using List.reverseRecOn with
    | nil => exact fun _ => h
    | append_singleton before e ih =>
      intro hp
      have hbefore := ih ((List.prefix_append before [e]).trans hp)
      rw [run_snoc]
      exact (remaining_le_limit_next_iff hbefore).mpr (hn before e hp)

/-- A limited bucket grants a slot exactly if the window has one left after its refill, and takes that
one. -/
theorem remaining_of_grants (hu : b.unlimited = false) (now : Instant) :
    (b.grants now ↔ 0 < (b.refill now).remaining) ∧
      (b.grants now → (b.tryAdmit now).1.remaining + 1 = (b.refill now).remaining) := by
  obtain ⟨-, -, hr, hg⟩ := tryAdmit_limited hu now
  rw [remaining_refill]
  refine ⟨hg, fun h => ?_⟩
  have hpos := hg.mp h
  omega

/-- Whatever is done with a bucket at whatever times, its counts stay in range exactly as long as no
response overdraws it. Both are reported as they are; after a response, an empty bucket knows when it
refills unless the response has been broken off; and a limited bucket grants a slot only by taking one
of those that its refill has left. -/
theorem counts_in_range_iff (key : BucketKey) (backoff : Duration) (start : Instant)
    (history : List Event) :
    let fresh := create key backoff start
    let b := fresh.run history
    ((∀ before, before <+: history →
          (fresh.run before).remaining ≤ (fresh.run before).limit) ↔
        ∀ before e, before ++ [e] <+: history → ¬ (fresh.run before).Overdraws e) ∧
      (reported b.remaining).toNat = b.remaining ∧ (reported b.limit).toNat = b.limit ∧
      (∀ info now, (b.absorb info now).unlimited = false → (b.absorb info now).remaining = 0 →
        ((b.absorb info now).resetAt = none ↔ b.update? info now = none ∧ b.resetAt = none)) ∧
      ∀ now, b.unlimited = false →
        (b.grants now ↔ 0 < (b.refill now).remaining) ∧
          (b.grants now → (b.tryAdmit now).1.remaining + 1 = (b.refill now).remaining) := by
  intro fresh b
  have hn : b.Narrow := (narrow_create key backoff start).run history
  refine ⟨?_, toNat_reported hn.remaining, toNat_reported hn.limit, ?_, ?_⟩
  · exact remaining_le_limit_run_iff (Nat.le_refl 1) history
  · intro info now
    exact resetAt_absorb_eq_none_iff
  · intro now hu
    exact remaining_of_grants hu now

/-- A bucket with five slots left hears of a limit of one, and of an end that no clock can
represent. -/
def shrunkLimit : List Event :=
  [⟨⟨0⟩, .learn { RateLimit.silent with
      limit := some 5, remaining := some 5, resetAfter := some (.ofSecs 10) }⟩,
    ⟨⟨1⟩, .learn { RateLimit.silent with limit := some 1, resetAfter := some .longest }⟩]

theorem shrunkLimit_exceeded :
    let b := (create ⟨.get, "/gateway", none⟩ (.ofMillis 750) ⟨0⟩).run shrunkLimit
    b.unlimited = false ∧ b.limit = 1 ∧ b.remaining = 5 ∧ ¬ b.remaining ≤ b.limit := by
  decide

end Bucket

end Parley.Rest
