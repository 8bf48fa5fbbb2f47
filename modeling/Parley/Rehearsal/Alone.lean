import Parley.Rest.Gate
import Parley.Rest.Terms

/-! What a request meets that is alone with its terms and the gate, in milliseconds. -/
namespace Parley.Rest

namespace Terms

/-- Waits for a limit to end. The result is the moment at which the request goes on, and the failure
if it does not. -/
def waitAlone (t : Terms) (label : String) (now : Nat) (until_ : Instant) :
    Nat × Option ClientError :=
  match t.waitFailure? .none label (.ofMillis now) until_ with
  | some e => (now, some e)
  | none => (max now until_.firesAt, none)

/-- Does work of some length, which is given up at the deadline. -/
def workAlone (t : Terms) (now work : Nat) : Nat × Option ClientError :=
  if now + work ≤ t.deadline.firesAt then (now + work, none)
  else (max now t.deadline.firesAt, some .timeout)

end Terms

def workUnlessCanceled (now work : Nat) (canceled : Option Nat) : Nat × Option ClientError :=
  match canceled with
  | some t => if now + work ≤ t then (now + work, none) else (max now t, some .canceled)
  | none => (now + work, none)

namespace Gate

def passAlone (g : Gate) (t : Terms) (now : Nat) : Gate × Nat × Option ClientError :=
  match t.failure? .none (.ofMillis now) with
  | some e => (g, now, some e)
  | none =>
    match g.blockedUntil (.ofMillis now) with
    | (g, none) => (g, now, none)
    | (g, some until_) =>
      match t.waitAlone label now until_ with
      | (now, some e) => (g, now, some e)
      | (now, none) => ((g.blockedUntil (.ofMillis now)).1, now, t.failure? .none (.ofMillis now))

def waitOpen (g : Gate) (now : Nat) : Gate × Nat :=
  match g.blockedUntil (.ofMillis now) with
  | (g, none) => (g, now)
  | (g, some until_) =>
    let later := max now until_.firesAt
    ((g.blockedUntil (.ofMillis later)).1, later)

end Gate

end Parley.Rest
