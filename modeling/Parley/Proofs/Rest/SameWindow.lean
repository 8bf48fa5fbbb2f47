import Parley.Proofs.Rest.Counts

/-! Responses that belong to the window which a bucket knows. They may come in any order: each of them
can only lower the count and put off the end, so the lowest count and the latest end remain. The ends
are compared on the clock, which has to go on for the tolerance after each of them. -/
namespace Parley.Rest

namespace Bucket

/-- A response that tells how many slots are left in a window and when it ends, with the limit that
all responses give. -/
structure Told (limit : Option UInt32) where
  time : Instant
  info : RateLimit
  remaining : UInt32
  ends : Instant
  limit_eq : info.limit = limit
  remaining_eq : info.remaining = some remaining
  ends_eq : announced info time = some ends

namespace Told

variable {limit : Option UInt32}

def event (r : Told limit) : Event := ⟨r.time, .learn r.info⟩

def report (r : Told limit) : Nat × Instant := (r.remaining.toNat, r.ends)

theorem hasMetadata (r : Told limit) : r.info.hasMetadata = true := by
  simp [RateLimit.hasMetadata, r.remaining_eq]

theorem isSome_after (r : Told limit) {wait : Duration} (hw : wait ∈ r.info.resetAfter) :
    (r.time.after? wait).isSome := by
  have he := r.ends_eq
  rw [announced, Option.mem_def.mp hw, Option.bind_some] at he
  exact Option.isSome_of_eq_some he

end Told

/-- `u` is not later than the tolerance after `t`, wherever the clock ends. -/
def Near (t u : Instant) : Prop := u ≤ t.plus tolerance

instance (t u : Instant) : Decidable (Near t u) := inferInstanceAs (Decidable (_ ≤ _))

def Together (ends : List Instant) : Prop := ∀ t ∈ ends, ∀ u ∈ ends, Near t u

instance (ends : List Instant) : Decidable (Together ends) :=
  inferInstanceAs (Decidable (∀ t ∈ ends, ∀ u ∈ ends, Near t u))

theorem Together.of_subset {ends all : List Instant} (h : Together all) (hs : ends ⊆ all) :
    Together ends := fun t ht u hu => h t (hs ht) u (hs hu)

theorem cons_max_subset (t u : Instant) (rest : List Instant) :
    max t u :: rest ⊆ t :: u :: rest := by
  have hm : max t u = t ∨ max t u = u := by
    change (if t ≤ u then u else t) = t ∨ (if t ≤ u then u else t) = u
    split_ifs <;> simp
  refine List.cons_subset.mpr ⟨?_, fun v hv => List.mem_cons_of_mem t (List.mem_cons_of_mem u hv)⟩
  rcases hm with hm | hm
  · simp [hm]
  · simp [hm]

structure Knows (b : Bucket) (ends : Instant) : Prop where
  limited : b.unlimited = false
  learned : b.learned = true
  resets : b.resetAt = some ends

def limitWith (limit : Option UInt32) (b : Bucket) : Nat := (limit.map UInt32.toNat).getD b.limit

variable {b : Bucket} {known t : Instant} {limit : Option UInt32} {responses : List (Told limit)}

theorem Near.isNewWindow (h : Near known t) : isNewWindow (some known) (some t) = false := by
  simp only [Bucket.isNewWindow]
  cases hl : known.after? tolerance with
  | none => rfl
  | some last =>
    have hno : ¬ last < t := by
      rw [Instant.after?_eq_some hl]
      exact fun hlt => Instant.not_le_of_lt hlt h
    simp [hno]

theorem Knows.inRange_iff (h : b.Knows known) (r : Told limit) :
    b.InRange r.info r.time ↔ (known.after? tolerance).isSome := by
  constructor
  · intro hr
    have hw := r.ends_eq
    unfold announced at hw
    obtain ⟨wait, hwait, -⟩ := Option.bind_eq_some_iff.mp hw
    exact (hr h.limited wait hwait).2 known h.resets
  · intro hc _ wait hwait
    refine ⟨r.isSome_after hwait, fun known' hk => ?_⟩
    obtain rfl := Option.some.inj (h.resets.symm.trans hk)
    exact hc

theorem Knows.update? (h : b.Knows known) (hc : (known.after? tolerance).isSome) (r : Told limit) :
    b.update? r.info r.time = some (b.learn r.info (some r.ends) r.time) := by
  rw [update?_of_told h.limited r.hasMetadata ((h.inRange_iff r).mpr hc), r.ends_eq]

theorem Knows.next_eq (h : b.Knows known) (hc : (known.after? tolerance).isSome) (r : Told limit) :
    b.next r.event = b.learn r.info (some r.ends) r.time :=
  absorb_of_update (h.update? hc r)

/-- A response of the window lowers the count to its own and to the limit, and puts off the end. -/
theorem Knows.next (h : b.Knows known) (hc : (known.after? tolerance).isSome) (r : Told limit)
    (hw : Near known r.ends) :
    (b.next r.event).Knows (max known r.ends) ∧ (b.next r.event).limit = limitWith limit b ∧
      (b.next r.event).remaining = min (min b.remaining r.remaining.toNat) (limitWith limit b) := by
  have hwindow := hw.isNewWindow
  rw [h.next_eq hc]
  refine ⟨⟨h.limited, rfl, ?_⟩, ?_, ?_⟩
  · simp [learn, h.resets, h.learned, hwindow]
  · simp [learn, r.limit_eq, limitWith]
  · simp [learn, r.remaining_eq, r.limit_eq, h.resets, h.learned, hwindow, limitWith]

theorem Knows.limitWith_next (h : b.Knows known) (hc : (known.after? tolerance).isSome)
    (r : Told limit) (hw : Near known r.ends) :
    limitWith limit (b.next r.event) = limitWith limit b := by
  obtain ⟨-, hl, -⟩ := h.next hc r hw
  cases limit with
  | none => exact hl
  | some n => rfl

def least (n : Nat) (responses : List (Told limit)) : Nat :=
  (responses.map fun r => r.remaining.toNat).foldl min n

def latest (t : Instant) (responses : List (Told limit)) : Instant :=
  (responses.map fun r => r.ends).foldl max t

@[simp] theorem least_cons (n : Nat) (r : Told limit) (responses : List (Told limit)) :
    least n (r :: responses) = least (min n r.remaining.toNat) responses := rfl

theorem least_min (n m : Nat) (responses : List (Told limit)) :
    least (min n m) responses = min (least n responses) m := by
  induction responses generalizing n with
  | nil => rfl
  | cons r responses ih => rw [least_cons, least_cons, Nat.min_right_comm, ih]

theorem le_latest (t : Instant) (responses : List (Told limit)) : t ≤ latest t responses := by
  induction responses generalizing t with
  | nil => exact Nat.le_refl t.nanos
  | cons r responses ih => exact Instant.le_trans (Instant.le_max_left t r.ends) (ih _)

/-- If the clock goes on for the tolerance after the latest end, it does so after the one known. -/
theorem isSome_after_of_latest (responses : List (Told limit))
    (hc : ((latest known responses).after? tolerance).isSome) : (known.after? tolerance).isSome := by
  rw [Instant.isSome_after_iff] at hc ⊢
  have hle : known.nanos ≤ (latest known responses).nanos := le_latest known responses
  omega

theorem Knows.run (h : b.Knows known) (hw : Together (known :: responses.map Told.ends))
    (hc : ((latest known responses).after? tolerance).isSome) :
    (b.run (responses.map Told.event)).Knows (latest known responses) ∧
      (b.run (responses.map Told.event)).remaining =
        if responses.isEmpty then b.remaining
        else min (least b.remaining responses) (limitWith limit b) := by
  induction responses generalizing b known with
  | nil => exact ⟨h, rfl⟩
  | cons r responses ih =>
    have hr : Near known r.ends := hw known (by simp) r.ends (by simp)
    have hone := isSome_after_of_latest (r :: responses) hc
    obtain ⟨hk, -, hn⟩ := h.next hone r hr
    obtain ⟨hknows, hcount⟩ := ih hk (hw.of_subset (cons_max_subset known r.ends _)) hc
    refine ⟨hknows, ?_⟩
    rw [List.map_cons, run_cons, hcount, h.limitWith_next hone r hr, hn, least_min, least_cons]
    cases responses with
    | nil => simp [least]
    | cons => simp

theorem nanos_max (t u : Instant) : (max t u).nanos = max t.nanos u.nanos := by
  change (if t ≤ u then u else t).nanos = max t.nanos u.nanos
  split
  · next h => exact (Nat.max_eq_right h).symm
  · next h => exact (Nat.max_eq_left (Nat.le_of_not_le h)).symm

variable {order : List (Told limit)}

end Bucket

end Parley.Rest
