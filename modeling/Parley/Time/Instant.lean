import Parley.Time.Duration

/-! Points on a monotonic clock. The clock counts seconds in a signed 64-bit integer, so a point
past its range cannot be formed. -/
namespace Parley

structure Instant where
  nanos : Nat
deriving DecidableEq, Inhabited

namespace Instant

instance : LE Instant := ⟨fun a b => a.nanos ≤ b.nanos⟩
instance (a b : Instant) : Decidable (a ≤ b) := inferInstanceAs (Decidable (a.nanos ≤ b.nanos))
instance : LT Instant := ⟨fun a b => a.nanos < b.nanos⟩
instance (a b : Instant) : Decidable (a < b) := inferInstanceAs (Decidable (a.nanos < b.nanos))
instance : Max Instant := ⟨fun a b => if a ≤ b then b else a⟩

/-- First count of nanoseconds outside the clock's range. -/
def limit : Nat := 9223372036854775808000000000

def ofMillis (ms : Nat) : Instant := ⟨ms * 1000000⟩

/-- `t` moved by `d`, if the clock can represent it. -/
def after? (t : Instant) (d : Duration) : Option Instant :=
  if t.nanos + d.nanos < limit then some ⟨t.nanos + d.nanos⟩ else none

/-- `t` moved by a wait that the client sets for itself, without regard to the clock's range. Settings
in milliseconds of 64 bits stay within it as long as `t` is before the second 2 ^ 62. A longer wait,
as a caller may give for a request or a cleanup, ends at an instant that never comes, where a clock
that is asked for it breaks off. -/
def plus (t : Instant) (d : Duration) : Instant := ⟨t.nanos + d.nanos⟩

def since (t earlier : Instant) : Duration :=
  Duration.ofNanos (t.nanos - earlier.nanos)

/-- Millisecond at which a timer set for `t` fires: timers do not tell apart instants within one
millisecond and never fire early. -/
def firesAt (t : Instant) : Nat := (t.nanos + 999999) / 1000000

theorem after?_eq_some {t u : Instant} {d : Duration} (h : t.after? d = some u) : u = t.plus d := by
  unfold after? at h
  split at h
  · exact (Option.some.inj h).symm
  · simp at h

theorem isSome_after_iff {t : Instant} {d : Duration} :
    (t.after? d).isSome ↔ t.nanos + d.nanos < limit := by
  unfold after?
  split <;> simp [*]

theorem le_iff (a b : Instant) : a ≤ b ↔ a.nanos ≤ b.nanos := Iff.rfl

theorem lt_iff (a b : Instant) : a < b ↔ a.nanos < b.nanos := Iff.rfl

theorem lt_of_lt_of_le {a b c : Instant} (h₁ : a < b) (h₂ : b ≤ c) : a < c := by
  rw [lt_iff] at *
  rw [le_iff] at h₂
  omega

theorem le_trans {a b c : Instant} (h₁ : a ≤ b) (h₂ : b ≤ c) : a ≤ c := by
  rw [le_iff] at *
  omega

theorem not_le_of_lt {a b : Instant} (h : a < b) : ¬ b ≤ a := by
  rw [lt_iff] at h
  rw [le_iff]
  omega

theorem le_of_not_lt {a b : Instant} (h : ¬ a < b) : b ≤ a := by
  rw [lt_iff] at h
  rw [le_iff]
  omega

theorem le_max_left (a b : Instant) : a ≤ max a b := by
  change a ≤ if a ≤ b then b else a
  split
  · assumption
  · exact Nat.le_refl a.nanos

end Instant

end Parley
