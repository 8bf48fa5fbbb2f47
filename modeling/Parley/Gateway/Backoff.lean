import Parley.Time.Duration

/-! Waits before connecting again. They double with each failure up to a cap, and each is drawn
from the upper half of its ceiling. -/
namespace Parley.Gateway

structure Backoff where
  base : Duration
  cap : Duration
deriving DecidableEq

namespace Backoff

/-- A cap below the base counts as the base. -/
def create (base cap : Duration) : Backoff := ⟨base, max cap base⟩

def standard : Backoff := create (.ofSecs 1) (.ofSecs 30)

instance : Inhabited Backoff := ⟨standard⟩

/-- Longest wait after a number of failures in a row; none after no failure. -/
def ceiling (b : Backoff) (failures : Nat) : Duration :=
  if failures = 0 then .zero
  else min (b.base.saturatingMul (Nat.pow 2 (min (failures - 1) 16))) b.cap

def between (low high : Duration) (roll : Nat) : Duration :=
  .ofNanos (low.nanos + roll % (high.nanos - low.nanos + 1))

def delay (b : Backoff) (failures roll : Nat) : Duration :=
  let ceiling := b.ceiling failures
  between ceiling.half ceiling roll

def invalidSessionWait (roll : Nat) : Duration := between (.ofSecs 1) (.ofSecs 5) roll

end Backoff

end Parley.Gateway
