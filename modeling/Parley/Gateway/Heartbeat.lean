import Parley.Time.Instant

/-! The heartbeat of one connection that waits for its acknowledgement, and the latency seen. -/
namespace Parley.Gateway

structure Heartbeat where
  interval : Option Duration
  /-- When the heartbeat was sent that has no acknowledgement yet. -/
  pendingSince : Option Instant
  /-- Round trip of the last acknowledged heartbeat; it outlives connections. -/
  latency : Option Duration
deriving DecidableEq, Inhabited

namespace Heartbeat

def idle : Heartbeat := ⟨none, none, none⟩

def start (h : Heartbeat) (interval : Duration) : Heartbeat :=
  { h with interval := some interval, pendingSince := none }

def stop (h : Heartbeat) : Heartbeat := { h with interval := none, pendingSince := none }

def isAwaiting (h : Heartbeat) : Bool := h.pendingSince.isSome

def sent (h : Heartbeat) (now : Instant) : Heartbeat := { h with pendingSince := some now }

/-- Round trip, if a heartbeat was waiting. -/
def acked (h : Heartbeat) (now : Instant) : Heartbeat × Option Duration :=
  match h.pendingSince with
  | none => (h, none)
  | some sent =>
    let trip := now.since sent
    ({ h with pendingSince := none, latency := some trip }, some trip)

end Heartbeat

end Parley.Gateway
