import Parley.Rest.Queue

/-! Periodic cleanups of a queue. -/
namespace Parley.Rest

structure Sweep where
  due : Instant
  period : Duration
  idle : Duration
deriving DecidableEq

namespace Sweep

/-- The first cleanup comes after one period. Without a period there is none, since no timer beats at
intervals of zero. -/
def start? (period idle : Duration) (now : Instant) : Option Sweep :=
  if period = .zero then none else some ⟨now.plus period, period, idle⟩

/-- Closing the queue ends its cleanups. -/
def isDue (s : Sweep) (q : Queue) (now : Instant) : Bool := !q.isClosed && s.due ≤ now

def run (s : Sweep) (q : Queue) (now : Instant) : Sweep × Queue :=
  ({ s with due := now.plus s.period }, (q.cleanup s.idle now).1)

end Sweep

end Parley.Rest
