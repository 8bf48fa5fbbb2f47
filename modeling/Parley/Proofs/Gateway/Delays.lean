import Mathlib.Algebra.Group.Nat.Defs
import Parley.Proofs.Gateway.Escalation

/-! How long a session waits before it connects again. The ceilings double with each failure until
they reach the cap, without any of them being cut off by the range of durations, and a machine
draws each wait from the upper half of the ceiling for the failures that it has counted. Only after
an invalid session it draws from a range of its own. -/
namespace Parley

namespace Duration
variable {a b : Duration}

theorem le_iff : a ≤ b ↔ a.nanos ≤ b.nanos := Iff.rfl

theorem eq_of_nanos_eq (h : a.nanos = b.nanos) : a = b := by
  cases a
  cases b
  exact (mk.injEq ..).mpr h

theorem nanos_min (a b : Duration) : (min a b).nanos = min a.nanos b.nanos := by
  rw [Nat.min_def]
  exact apply_ite nanos ..

theorem nanos_max (a b : Duration) : (max a b).nanos = max a.nanos b.nanos := by
  rw [Nat.max_def]
  exact apply_ite nanos ..

theorem nanos_ofNanos (n : Nat) : (ofNanos n).nanos = min n longest.nanos := by
  unfold ofNanos
  split_ifs with h
  · exact (Nat.min_eq_left (Nat.le_of_lt_succ h)).symm
  · exact (Nat.min_eq_right (Nat.le_of_not_lt fun hlt => h (Nat.lt_succ_of_lt hlt))).symm

theorem nanos_le_longest (d : Duration) : d.nanos ≤ longest.nanos := Nat.le_of_lt_succ d.bounded

theorem half_le (d : Duration) : d.half ≤ d := Nat.div_le_self d.nanos 2

end Duration

namespace Gateway.Backoff

theorem cap_create (base cap : Duration) : (create base cap).cap = max base cap := by
  apply Duration.eq_of_nanos_eq
  rw [Duration.nanos_max, Nat.max_comm]
  exact Duration.nanos_max cap base

/-- The exact product, held at the cap: the cap is a duration, so a product past all durations is
past the cap. -/
theorem nanos_ceiling_succ (b : Backoff) (n : Nat) :
    (b.ceiling (n + 1)).nanos = min (b.base.nanos * 2 ^ min n 16) b.cap.nanos := by
  rw [ceiling, if_neg (Nat.succ_ne_zero n), Duration.nanos_min, Duration.saturatingMul,
    Duration.nanos_ofNanos, Nat.min_assoc, Nat.min_eq_right b.cap.nanos_le_longest]
  rfl

/-- The factor is far from the end of 32 bits. -/
theorem factor_lt (n : Nat) : 2 ^ min n 16 < UInt32.size := by
  have hle : 2 ^ min n 16 ≤ 2 ^ 16 := Nat.pow_le_pow_right (by decide) (Nat.min_le_right n 16)
  exact Nat.lt_of_le_of_lt hle (by decide)

theorem ceiling_mono (b : Backoff) {n k : Nat} (h : n ≤ k) : b.ceiling n ≤ b.ceiling k := by
  cases n with
  | zero => exact Nat.zero_le _
  | succ n =>
    obtain ⟨k, rfl⟩ := Nat.exists_eq_add_of_le' h
    have hexp : min n 16 ≤ min (k + n) 16 := by omega
    rw [Duration.le_iff, ← Nat.add_assoc, nanos_ceiling_succ, nanos_ceiling_succ]
    have hprod := Nat.mul_le_mul_left b.base.nanos (Nat.pow_le_pow_right (n := 2) (by decide) hexp)
    exact Nat.le_min.mpr ⟨Nat.le_trans (Nat.min_le_left ..) hprod, Nat.min_le_right ..⟩

theorem base_le_ceiling (base cap : Duration) (n : Nat) :
    base ≤ (create base cap).ceiling (n + 1) := by
  rw [Duration.le_iff, nanos_ceiling_succ, cap_create, Duration.nanos_max]
  exact Nat.le_min.mpr ⟨Nat.le_mul_of_pos_right _ (Nat.two_pow_pos _), Nat.le_max_left ..⟩

theorem ceiling_le_cap (b : Backoff) (n : Nat) : b.ceiling n ≤ b.cap := by
  cases n with
  | zero => exact Nat.zero_le _
  | succ n =>
    rw [Duration.le_iff, nanos_ceiling_succ]
    exact Nat.min_le_right ..

/-- Up to the sixteenth failure the next ceiling is twice as long, or the cap. -/
theorem ceiling_doubles (b : Backoff) {n : Nat} (h : n + 1 ≤ 16) :
    (b.ceiling (n + 1)).nanos * 2 ≤ (b.ceiling (n + 2)).nanos ∨ b.ceiling (n + 2) = b.cap := by
  have hnext : (b.ceiling (n + 2)).nanos = min (b.base.nanos * 2 ^ n * 2) b.cap.nanos := by
    rw [nanos_ceiling_succ, Nat.min_eq_left h, Nat.pow_succ, Nat.mul_assoc]
  have hthis : (b.ceiling (n + 1)).nanos = min (b.base.nanos * 2 ^ n) b.cap.nanos := by
    rw [nanos_ceiling_succ, Nat.min_eq_left (Nat.le_of_succ_le h)]
  by_cases hcap : b.base.nanos * 2 ^ n * 2 ≤ b.cap.nanos
  · left
    rw [hnext, hthis, Nat.min_eq_left hcap]
    exact Nat.mul_le_mul_right 2 (Nat.min_le_left ..)
  · right
    apply Duration.eq_of_nanos_eq
    rw [hnext, Nat.min_eq_right (Nat.le_of_not_le hcap)]

/-- Chance brings any duration from the range, and no other. -/
theorem exists_between_iff {low high d : Duration} (h : low ≤ high) :
    (∃ roll, between low high roll = d) ↔ low ≤ d ∧ d ≤ high := by
  simp only [Duration.le_iff] at h ⊢
  have hlt (roll : Nat) : roll % (high.nanos - low.nanos + 1) < high.nanos - low.nanos + 1 :=
    Nat.mod_lt roll (Nat.succ_pos _)
  have hnanos (roll : Nat) :
      (between low high roll).nanos = low.nanos + roll % (high.nanos - low.nanos + 1) := by
    have hroll := hlt roll
    have hhigh := high.nanos_le_longest
    rw [between, Duration.nanos_ofNanos, Nat.min_eq_left (by omega)]
  constructor
  · rintro ⟨roll, rfl⟩
    have hroll := hlt roll
    rw [hnanos]
    omega
  · rintro ⟨hlow, hhigh⟩
    refine ⟨d.nanos - low.nanos, Duration.eq_of_nanos_eq ?_⟩
    rw [hnanos, Nat.mod_eq_of_lt (by omega)]
    omega

theorem delay_mem (b : Backoff) (failures roll : Nat) :
    (b.ceiling failures).half ≤ b.delay failures roll ∧
      b.delay failures roll ≤ b.ceiling failures :=
  (exists_between_iff (Duration.half_le _)).mp ⟨roll, rfl⟩

theorem invalidSessionWait_mem (roll : Nat) :
    .ofSecs 1 ≤ invalidSessionWait roll ∧ invalidSessionWait roll ≤ .ofSecs 5 :=
  (exists_between_iff (by decide)).mp ⟨roll, rfl⟩

end Gateway.Backoff

namespace Gateway.Machine
variable {m : Machine} {history : List Exchange} {limit : Nat} {i : Input} {wait : Duration}

theorem wait_of_connectionLost {roll : Nat} {code : Option UInt16} {reason : String}
    {action : CloseAction} {own : Option Duration}
    (h : .scheduleReconnect wait ∈ (m.connectionLost roll code reason action own).2) :
    wait = own.getD
      (m.backoff.delay (m.connectionLost roll code reason action own).1.failures roll) := by
  by_cases ha : action = .fatal
  · subst ha
    simp [connectionLost_fatal, enterFatal, hangUp] at h
  · rw [connectionLost_of_ne_fatal m roll code reason own ha] at h ⊢
    split at h
    · simp [enterFatal, hangUp] at h
    · next hm =>
      rw [if_neg hm]
      simpa [hangUp, unplugged] using h

theorem Escalates.backoff_handle (h : Escalates limit m history) (now : Instant) (roll : Nat)
    (i : Input) : (m.handle now roll i).1.backoff = m.backoff := by
  by_cases hl : i.Loses history m.state
  · obtain ⟨code, reason, action, he, -⟩ := handle_of_loses h.tracks hl now roll
    rw [he, backoff_connectionLost]
  · exact (continues_of_not_loses h.tracks hl now roll).backoff

theorem backoff_listen (url : String) (b : Backoff) (maxFailures : Nat) (arrivals : List Arrival) :
    ((create url b maxFailures).listen arrivals).1.backoff = b := by
  have hrun := listen_keeps
    (P := fun m history => Escalates (max maxFailures 1) m history ∧ m.backoff = b)
    ⟨.create url b maxFailures, rfl⟩
    (fun m _ now roll i h =>
      ⟨h.1.handle now roll i, (h.1.backoff_handle now roll i).trans h.2⟩) arrivals
  exact hrun.2

/-- A wait is planned with a loss that does not end the session. -/
theorem Escalates.loses_of_planned (h : Escalates limit m history) {now : Instant} {roll : Nat}
    (hw : .scheduleReconnect wait ∈ (m.handle now roll i).2) :
    i.Loses history m.state ∧ (m.handle now roll i).1.state ≠ .fatal := by
  have hcount : 0 < (m.handle now roll i).2.countP Effect.isReconnect :=
    List.countP_pos_iff.mpr ⟨_, hw, rfl⟩
  rw [h.reconnects now roll i] at hcount
  refine Decidable.byContradiction fun hn => ?_
  rw [if_neg hn] at hcount
  exact Nat.lt_irrefl 0 hcount

/-- It is drawn for the failures that are counted then, unless the input has a wait of its own. -/
theorem Escalates.wait_of_planned (h : Escalates limit m history) {now : Instant} {roll : Nat}
    (hw : .scheduleReconnect wait ∈ (m.handle now roll i).2) :
    wait = (i.ownWait? roll).getD
      (m.backoff.delay (m.handle now roll i).1.failures roll) := by
  obtain ⟨code, reason, action, he, -⟩ :=
    handle_of_loses h.tracks (h.loses_of_planned hw).1 now roll
  rw [he] at hw ⊢
  exact wait_of_connectionLost hw

/-- The ceilings start at nothing and, from the first failure on, are the base doubled with each
further one, sixteen times at most, and held at the larger of base and cap. They are never cut off
otherwise, never fall, and double until they have reached that cap. Whatever has happened to a
machine, each wait that it plans is from the upper half of the ceiling for the attempts that have
failed in a row, or from one to five seconds after an invalid session. -/
theorem waits_within_ceilings (url : String) (base cap : Duration) (maxFailures : Nat)
    (arrivals : List Arrival) (now : Instant) (roll : Nat) (i : Input) :
    let b := Backoff.create base cap
    let most := max base cap
    let run := (create url b maxFailures).listen arrivals
    let next := (run.1.handle now roll i).1
    let effects := (run.1.handle now roll i).2
    b.ceiling 0 = .zero ∧
    (∀ n, 2 ^ min n 16 < UInt32.size ∧
      (b.ceiling (n + 1)).nanos = min (base.nanos * 2 ^ min n 16) most.nanos ∧
      base ≤ b.ceiling (n + 1) ∧ b.ceiling (n + 1) ≤ most) ∧
    (∀ n k, n ≤ k → b.ceiling n ≤ b.ceiling k) ∧
    (∀ n, 1 ≤ n → n ≤ 16 →
      (b.ceiling n).nanos * 2 ≤ (b.ceiling (n + 1)).nanos ∨ b.ceiling (n + 1) = most) ∧
    ∀ wait, .scheduleReconnect wait ∈ effects →
      next.failures = failedAttempts (⟨⟨run.1.state, i, next.state⟩, effects⟩ :: run.2) ∧
      if i.isInvalidSession then .ofSecs 1 ≤ wait ∧ wait ≤ .ofSecs 5
      else (b.ceiling next.failures).half ≤ wait ∧ wait ≤ b.ceiling next.failures := by
  intro b most run next effects
  have hmost : b.cap = most := Backoff.cap_create base cap
  have hescalates := Escalates.listen url b maxFailures arrivals
  have hbackoff := backoff_listen url b maxFailures arrivals
  refine ⟨rfl, fun n => ⟨Backoff.factor_lt n, ?_, Backoff.base_le_ceiling base cap n, ?_⟩,
    fun n k => b.ceiling_mono, fun n hn h16 => ?_, fun wait hw => ⟨?_, ?_⟩⟩
  · rw [← hmost]
    exact b.nanos_ceiling_succ n
  · rw [← hmost]
    exact b.ceiling_le_cap (n + 1)
  · obtain ⟨n, rfl⟩ := Nat.exists_eq_add_of_le' hn
    rw [← hmost]
    exact b.ceiling_doubles h16
  · exact ((hescalates.handle now roll i).counted (hescalates.loses_of_planned hw).2).1
  · rw [hescalates.wait_of_planned hw, hbackoff, Input.ownWait?]
    cases i.isInvalidSession with
    | true => exact Backoff.invalidSessionWait_mem roll
    | false => exact b.delay_mem _ roll

/-- A session that fails twice before the server greets it. -/
def greetedAtLast : List Arrival :=
  [⟨⟨0⟩, 0, .connect⟩, ⟨⟨1⟩, 0, .connectFailed "refused"⟩, ⟨⟨2⟩, 0, .reconnectDue⟩,
    ⟨⟨3⟩, 0, .connectFailed "refused"⟩, ⟨⟨4⟩, 0, .reconnectDue⟩, ⟨⟨5⟩, 0, .opened⟩,
    ⟨⟨6⟩, 0, .hello (.ofSecs 40)⟩]

/-- Its third loss is waited out for a time from the upper half of the third ceiling, and for one to
five seconds if the server has called the session invalid. The sixth ceiling is the cap. -/
theorem greetedAtLast_waits :
    let b := Backoff.create (.ofSecs 1) (.ofSecs 30)
    let m := ((create "wss://gateway.test" b 5).listen greetedAtLast).1
    let lost := m.handle ⟨7⟩ 7 (.closed ⟨none, "bye"⟩)
    let invalid := m.handle ⟨7⟩ 7 (.invalidSession true)
    let long := Duration.ofNanos 2000000007
    let short := Duration.ofNanos 1000000007
    (.scheduleReconnect long ∈ lost.2 ∧ lost.1.failures = 3 ∧
      (b.ceiling lost.1.failures).half ≤ long ∧ long ≤ b.ceiling lost.1.failures) ∧
    (.scheduleReconnect short ∈ invalid.2 ∧ .ofSecs 1 ≤ short ∧ short ≤ .ofSecs 5) ∧
    b.ceiling 5 ≤ b.ceiling 6 ∧ b.ceiling 6 = max (.ofSecs 1) (.ofSecs 30) := by
  intro b m lost invalid long short
  have hwaits (i : Input) := waits_within_ceilings "wss://gateway.test" (.ofSecs 1) (.ofSecs 30) 5
    greetedAtLast ⟨7⟩ 7 i
  obtain ⟨-, -, hmono, hdoubles, hlost⟩ := hwaits (.closed ⟨none, "bye"⟩)
  obtain ⟨-, -, -, -, hinvalid⟩ := hwaits (.invalidSession true)
  have hlong : .scheduleReconnect long ∈ lost.2 := by decide
  have hshort : .scheduleReconnect short ∈ invalid.2 := by decide
  have hsixth := (hdoubles 5 (by decide) (by decide)).resolve_left (by decide)
  have hupper := (hlost _ hlong).2
  rw [if_neg (by decide)] at hupper
  have hown := (hinvalid _ hshort).2
  rw [if_pos (by decide)] at hown
  have hspan : (b.ceiling lost.1.failures).half ≤ long ∧ long ≤ b.ceiling lost.1.failures := by
    simpa only [lost, m, b] using hupper
  exact ⟨⟨hlong, by decide, hspan⟩, ⟨hshort, hown⟩, hmono 5 6 (by decide), hsixth⟩

end Gateway.Machine

end Parley
