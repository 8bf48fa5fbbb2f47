import Parley.Rest.Bucket
import Parley.Rest.Terms

/-! A bucket with the requests that use it. They stand in line in order of arrival; only the head of
the line asks for slots, and keeps its place while it waits for the bucket to refill. -/
namespace Parley.Rest

inductive Place where
  /-- In line, and not known to be at its head. -/
  | inLine
  | asleep (until_ : Instant)
  | granted
  | refused (error : ClientError)
deriving DecidableEq

structure Lane where
  bucket : Bucket
  line : List Nat
  /-- Requests with a slot whose answer is not here yet. -/
  inFlight : List Nat
deriving DecidableEq

namespace Lane

def create (bucket : Bucket) : Lane := ⟨bucket, [], []⟩

def isHead (l : Lane) (request : Nat) : Bool := l.line.head? == some request

def inUse (l : Lane) : Bool := !l.line.isEmpty || !l.inFlight.isEmpty

/-- Nobody has asked for a slot during `ttl`, and nobody stands in line. -/
def isIdle (l : Lane) (now : Instant) (ttl : Duration) : Bool :=
  l.bucket.isQuiet now ttl && l.line.isEmpty

def leave (l : Lane) (request : Nat) : Lane := { l with line := l.line.erase request }

def ask (l : Lane) (request : Nat) (terms : Terms) (signals : Signals) (now : Instant) :
    Lane × Place :=
  match terms.failure? signals now with
  | some e => (l.leave request, .refused e)
  | none =>
    match l.bucket.tryAdmit now with
    | (bucket, .granted) => ({ l with bucket }.leave request, .granted)
    | (bucket, .waitUntil reset) =>
      let l := { l with bucket }
      match terms.waitFailure? signals bucket.label now reset with
      | some e => (l.leave request, .refused e)
      | none => (l, .asleep reset)

/-- A request joins the line, and asks at once if nobody stands before it. -/
def arrive (l : Lane) (request : Nat) (terms : Terms) (signals : Signals) (now : Instant) :
    Lane × Place :=
  match terms.failure? signals now with
  | some e => (l, .refused e)
  | none =>
    let joined := { l with line := l.line ++ [request] }
    if joined.isHead request then joined.ask request terms signals now else (joined, .inLine)

def launch (l : Lane) (request : Nat) : Lane := { l with inFlight := l.inFlight ++ [request] }

def land (l : Lane) (request : Nat) : Lane := { l with inFlight := l.inFlight.erase request }

def refund (l : Lane) : Lane := { l with bucket := l.bucket.refund }

end Lane

end Parley.Rest
