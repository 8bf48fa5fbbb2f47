import Parley.Time.Instant

/-! The clock of the heartbeats of one connection. -/
namespace Parley.Gateway

structure Ticker where
  due : Instant
  period : Duration
deriving DecidableEq

namespace Ticker

/-- A random part of a period is a multiple of one part in 2 ^ 53. -/
def grain : Nat := 9007199254740992

/-- The first beat falls at a random moment within the first period, so that clients which connect
together do not beat together. -/
def start (now : Instant) (period : Duration) (roll : Nat) : Ticker :=
  ⟨⟨now.nanos + period.nanos * (roll % grain) / grain⟩, period⟩

/-- The ticker after a beat. A beat that comes more than five milliseconds late puts off those after
it. -/
def next (t : Ticker) (now : Instant) : Ticker :=
  let origin := if t.due.nanos + 5000000 < now.nanos then now else t.due
  { t with due := origin.plus t.period }

end Ticker

end Parley.Gateway
