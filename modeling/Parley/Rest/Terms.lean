import Parley.ClientError
import Parley.Retry
import Parley.Time.Instant

/-! What bounds the waiting of one request. -/
namespace Parley.Rest

structure Terms where
  /-- When the request gives up, waits included. -/
  deadline : Instant
  retry : RetryPolicy
deriving DecidableEq, Inhabited

structure Signals where
  canceled : Bool
  closed : Option ClientError
deriving DecidableEq

def Signals.none : Signals := ⟨false, .none⟩

namespace Terms

/-- The failure with which the request has to end at `now`, if any. -/
def failure? (t : Terms) (s : Signals) (now : Instant) : Option ClientError :=
  if s.canceled then some .canceled
  else
    match s.closed with
    | some reason => some reason
    | none => if t.deadline ≤ now then some .timeout else none

/-- The failure that takes the place of a wait for the limit `label`. Such a wait is not begun if
the policy does not allow it or if it would end after the deadline. -/
def waitFailure? (t : Terms) (s : Signals) (label : String) (now until_ : Instant) :
    Option ClientError :=
  match t.failure? s now with
  | some e => some e
  | none =>
    if !t.retry.rateLimits || t.deadline < until_ then
      some (.rateLimited label (some (until_.since now)))
    else none

end Terms

end Parley.Rest
