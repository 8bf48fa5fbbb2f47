import Parley.Proofs.Binary64.Magnitudes
import Parley.Proofs.Rest.Booking
import Parley.Proofs.Rest.RefusalBodies

/-! The waits that a response announces, and the clock. A wait is accepted if it is less than
2 ^ 64 seconds, as a duration may be; but the clock ends at 2 ^ 63 seconds, and a response that
announces an end past that is not booked. -/
namespace Parley

namespace Binary64

def nanos (x : Binary64) : Nat := divNearest (x.fraction.1 * 1000000000) x.fraction.2

variable {x : Binary64}

/-- Doubles are sparse at 2 ^ 64 seconds, so that none below is rounded up to it. -/
theorem nanos_lt_iff (hx : x.mantissa < 2 ^ 53) :
    x.nanos < 18446744073709551616000000000 ↔ x.magnitude < 2 ^ 64 := by
  have hden : (0 : ℚ) < x.fraction.2 := by exact_mod_cast x.fraction_den_pos
  have hnum : x.magnitude < 2 ^ 64 ↔ x.fraction.1 < 2 ^ 64 * x.fraction.2 := by
    rw [← fraction_eq, div_lt_iff₀ hden]
    exact_mod_cast Iff.rfl
  rw [hnum]
  constructor
  · intro h
    apply Nat.lt_of_not_le
    intro hle
    have hge : 18446744073709551616000000000 ≤ x.nanos :=
      le_divNearest x.fraction_den_pos (by omega)
    omega
  · intro h
    by_cases he : x.exponent ≥ 0
    · have hone : x.fraction.2 = 1 := by simp [fraction, he]
      rw [hone] at h
      rw [nanos, hone, divNearest_one]
      omega
    · have hsmall : x.fraction.1 < 2 ^ 53 := by simpa [fraction, he] using hx
      have hpos := x.fraction_den_pos
      have hle : x.nanos ≤ 2 ^ 53 * 1000000000 := divNearest_le (by nlinarith)
      exact Nat.lt_of_le_of_lt hle (by norm_num)

end Binary64

/-- A number of seconds is a duration if it is not negative and below 2 ^ 64. -/
theorem Duration.ofSeconds?_eq_some_iff {x : Binary64} (hx : x.mantissa < 2 ^ 53) {d : Duration} :
    ofSeconds? x = some d ↔ 0 ≤ x.value ∧ x.value < 2 ^ 64 ∧ d.nanos = x.nanos := by
  have hnanos : Duration.ofNanos? x.nanos = some d ↔ x.magnitude < 2 ^ 64 ∧ d.nanos = x.nanos := by
    rw [← Binary64.nanos_lt_iff hx, ofNanos?]
    obtain ⟨n, hn⟩ := d
    split_ifs with h
    · simp [h, eq_comm]
    · simp [h]
  have hsign : (x.negative && !x.isZero) = true ↔ ¬ 0 ≤ x.value := by
    rw [Binary64.value_nonneg_iff]
    cases x.negative <;> cases x.isZero <;> simp
  have hdef : ofSeconds? x =
      if x.negative && !x.isZero then none else Duration.ofNanos? x.nanos := rfl
  rw [hdef]
  split_ifs with hs
  · simp [hsign.mp hs]
  · have h0 : 0 ≤ x.value := not_not.mp fun h => hs (hsign.mpr h)
    rw [hnanos, Binary64.value_eq_magnitude h0, ← Binary64.value_eq_magnitude h0]
    simp [h0]

namespace Rest

namespace RateLimit

variable {headers : Headers} {body : List UInt8} {x : Binary64} {wait : Duration}

def number? (headers : Headers) (name : String) : Option Binary64 :=
  (headers.text? name).bind fun s => Binary64.ofText? (Text.trim s)

def said? (body : List UInt8) : Option (Binary64 × Bool) := (Json.Tree.read? body).bind refusal

/-- The response gives the number as a wait in seconds. Its body is heard if the headers give no
wait. -/
inductive Announces (headers : Headers) (body : List UInt8) : Binary64 → Prop
  | resetAfter {x : Binary64} (h : number? headers "x-ratelimit-reset-after" = some x) :
      Announces headers body x
  | retryAfter {x : Binary64} (h : number? headers "retry-after" = some x) :
      Announces headers body x
  | body {x : Binary64} {isGlobal : Bool} (hn : (ofHeaders headers).retryAfter = none)
      (h : said? body = some (x, isGlobal)) : Announces headers body x

theorem mantissa_number {name : String} (h : number? headers name = some x) :
    x.mantissa < 2 ^ 53 := by
  obtain ⟨s, -, hs⟩ := Option.bind_eq_some_iff.mp h
  exact Binary64.mantissa_ofText hs

theorem Announces.mantissa (h : Announces headers body x) : x.mantissa < 2 ^ 53 := by
  cases h with
  | resetAfter h => exact mantissa_number h
  | retryAfter h => exact mantissa_number h
  | body _ h =>
    obtain ⟨t, ht, hr⟩ := Option.bind_eq_some_iff.mp h
    exact (refusal_eq_some_iff.mp hr).mantissa ht

theorem resetAfter_ofHeaders (headers : Headers) : (ofHeaders headers).resetAfter =
    (number? headers "x-ratelimit-reset-after").bind Duration.ofSeconds? :=
  (Option.bind_assoc _ _ _).symm

theorem retryAfter_ofHeaders (headers : Headers) : (ofHeaders headers).retryAfter =
    (number? headers "retry-after").bind Duration.ofSeconds? :=
  (Option.bind_assoc _ _ _).symm

theorem resetAfter_mergeBody (info : RateLimit) (body : List UInt8) :
    (info.mergeBody body).resetAfter = info.resetAfter := by
  unfold mergeBody
  split <;> rfl

theorem retryAfter_mergeBody (info : RateLimit) (body : List UInt8) :
    (info.mergeBody body).retryAfter =
      info.retryAfter.or ((said? body).bind fun said => Duration.ofSeconds? said.1) := by
  unfold mergeBody said?
  split
  · next h => simp [h]
  · next h => cases info.retryAfter <;> simp [h]

/-- The waits of a response are the numbers that it announces, as far as they are durations. -/
theorem wait_iff_announces :
    let info := (ofHeaders headers).mergeBody body
    (info.resetAfter = some wait ∨ info.retryAfter = some wait) ↔
      ∃ x, Announces headers body x ∧ Duration.ofSeconds? x = some wait := by
  have hreset := resetAfter_ofHeaders headers
  have hretry := retryAfter_ofHeaders headers
  dsimp only
  rw [resetAfter_mergeBody, retryAfter_mergeBody]
  constructor
  · rintro (h | h)
    · rw [hreset] at h
      obtain ⟨x, hx, hd⟩ := Option.bind_eq_some_iff.mp h
      exact ⟨x, .resetAfter hx, hd⟩
    · rcases Option.or_eq_some_iff.mp h with h | ⟨hn, h⟩
      · rw [hretry] at h
        obtain ⟨x, hx, hd⟩ := Option.bind_eq_some_iff.mp h
        exact ⟨x, .retryAfter hx, hd⟩
      · obtain ⟨⟨x, isGlobal⟩, hs, hd⟩ := Option.bind_eq_some_iff.mp h
        exact ⟨x, .body hn hs, hd⟩
  · rintro ⟨x, ha, hd⟩
    cases ha with
    | resetAfter h => simp [hreset, h, hd]
    | retryAfter h => simp [hretry, h, hd]
    | body hn h =>
      simp [hn, h, hd]

end RateLimit

theorem Bucket.not_inRange_iff {b : Bucket} {info : RateLimit} {now : Instant} :
    ¬ b.InRange info now ↔ b.unlimited = false ∧ ∃ wait ∈ info.resetAfter,
      now.after? wait = none ∨ ∃ known ∈ b.resetAt, known.after? tolerance = none := by
  simp only [InRange, not_forall, exists_prop, not_and_or, Option.isSome_iff_ne_none, ne_eq,
    not_not]

namespace Queue

variable {q : Queue} {lane : Nat} {b : Bucket}

/-- A response is not booked if one of the sums that its booking makes is past the clock's range:
unless the bucket is unlimited, the end of the window that it announces, or the known end with the
tolerance; and the end of a refusal. -/
theorem charge_eq_none_iff (hb : q.registry.bucketOf? lane = some b) (info : RateLimit)
    (isRefusal : Bool) (now : Instant) :
    (q.charge lane info isRefusal now).2 = none ↔
      (b.unlimited = false ∧ ∃ wait ∈ info.resetAfter,
        now.after? wait = none ∨ ∃ known ∈ b.resetAt, known.after? Bucket.tolerance = none) ∨
        (isRefusal = true ∧ now.after? (info.backoff?.getD q.registry.backoff) = none) := by
  have hsome := charge_isSome_iff hb info isRefusal now
  rw [← Bucket.not_inRange_iff, ← Option.not_isSome_iff_eq_none, hsome, Bucket.Reaches, not_and_or]
  simp only [Classical.not_imp, Option.not_isSome_iff_eq_none]

end Queue

namespace RateLimit

/-- Every wait that is accepted is a number of seconds that the response announces, not negative and
below 2 ^ 64. All of them can be added to an instant exactly if each of these numbers, in
nanoseconds, leaves the sum below the end of the clock; and a response is not booked exactly if a sum
that its booking makes is past that: the end that it announces, the known one with the tolerance, or
that of a refusal. -/
theorem accepted_waits_fit_iff (headers : Headers) (body : List UInt8) (now : Instant) :
    let info := (ofHeaders headers).mergeBody body
    (∀ wait, (info.resetAfter = some wait ∨ info.retryAfter = some wait) ↔
        ∃ x, Announces headers body x ∧ 0 ≤ x.value ∧ x.value < 2 ^ 64 ∧ wait.nanos = x.nanos) ∧
      ((∀ wait, (info.resetAfter = some wait ∨ info.retryAfter = some wait) →
          (now.after? wait).isSome) ↔
        ∀ x, Announces headers body x → 0 ≤ x.value → x.value < 2 ^ 64 →
          now.nanos + x.nanos < Instant.limit) ∧
      ∀ (status : UInt16) (q : Queue) (lane : Nat) (b : Bucket),
        q.registry.bucketOf? lane = some b →
        let r : Response := ⟨status, ofHeaders headers, body⟩
        ((q.charge lane (Queue.infoOf r) r.isRefusal now).2 = none ↔
          (b.unlimited = false ∧ ∃ wait ∈ (Queue.infoOf r).resetAfter,
            now.after? wait = none ∨ ∃ known ∈ b.resetAt, known.after? Bucket.tolerance = none) ∨
            (r.isRefusal = true ∧
              now.after? ((Queue.infoOf r).backoff?.getD q.registry.backoff) = none)) := by
  intro info
  have hwait (wait : Duration) : (info.resetAfter = some wait ∨ info.retryAfter = some wait) ↔
      ∃ x, Announces headers body x ∧ 0 ≤ x.value ∧ x.value < 2 ^ 64 ∧ wait.nanos = x.nanos := by
    refine wait_iff_announces.trans (exists_congr fun x => and_congr_right fun ha => ?_)
    exact Duration.ofSeconds?_eq_some_iff ha.mantissa
  refine ⟨hwait, ?_, fun status q lane b hb => Queue.charge_eq_none_iff hb _ _ now⟩
  constructor
  · intro h x ha h0 hlt
    have hn : x.nanos < 18446744073709551616000000000 := by
      rw [Binary64.nanos_lt_iff ha.mantissa, ← Binary64.value_eq_magnitude h0]
      exact hlt
    exact Instant.isSome_after_iff.mp (h ⟨x.nanos, hn⟩ ((hwait _).mpr ⟨x, ha, h0, hlt, rfl⟩))
  · intro h wait hw
    obtain ⟨x, ha, h0, hlt, heq⟩ := (hwait wait).mp hw
    rw [Instant.isSome_after_iff, heq]
    exact h x ha h0 hlt

/-- A wait of 10 ^ 19 seconds is accepted, and no clock gets there. -/
theorem far_retry_after_accepted :
    let info := ofHeaders [("retry-after", "1e19")]
    ∃ wait, info.retryAfter = some wait ∧ ∀ now : Instant, now.after? wait = none := by
  refine ⟨⟨10000000000000000000000000000, by decide⟩, by decide +kernel, ?_⟩
  intro now
  have hpast : ¬ now.nanos + 10000000000000000000000000000 < Instant.limit := by
    unfold Instant.limit
    omega
  exact if_neg hpast

end RateLimit

end Rest

end Parley
