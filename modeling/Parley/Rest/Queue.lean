import Parley.Rest.Gate
import Parley.Rest.Registry
import Parley.Rest.Response

/-! What the requests of one client share: the gate, the lanes, and whether the queue is closed. -/
namespace Parley.Rest

structure Queue where
  gate : Gate
  registry : Registry
  /-- Reason of the first closing. -/
  closed : Option ClientError
deriving DecidableEq

namespace Queue

def create (backoff : Duration) : Queue := ⟨.create, .create backoff, none⟩

/-- The first reason stays. -/
def close (q : Queue) (reason : ClientError) : Queue := { q with closed := q.closed <|> some reason }

def isClosed (q : Queue) : Bool := q.closed.isSome

def failure? (q : Queue) : Option ClientError := q.closed.map ClientError.duplicate

structure Booked where
  lane : Nat
  info : RateLimit
deriving DecidableEq

/-- What a response says about limits, its body included if it is a refusal. -/
def infoOf (response : Response) : RateLimit :=
  if response.isRefusal then response.rateLimit.mergeBody response.body else response.rateLimit

def setBucket (q : Queue) (number : Nat) (bucket : Bucket) : Queue :=
  { q with registry := q.registry.modifyLane number fun l => { l with bucket } }

/-- Books what a response says on a lane. A refusal blocks the lane, and a global one the gate too.
A wait that ends past the clock's range breaks the booking off: what was done before stays. -/
def charge (q : Queue) (lane : Nat) (info : RateLimit) (isRefusal : Bool) (now : Instant) :
    Queue × Option Booked :=
  match q.registry.lane? lane with
  | none => (q, none)
  | some used =>
    match used.bucket.update? info now with
    | none => (q.setBucket lane (used.bucket.learnLimit info), none)
    | some bucket =>
      if isRefusal then
        match now.after? (info.backoff?.getD q.registry.backoff) with
        | none => (q.setBucket lane (if info.isGlobal then bucket else bucket.drain), none)
        | some reset =>
          let gate := if info.isGlobal then q.gate.trip reset else q.gate
          ({ q with gate }.setBucket lane (bucket.refuse reset), some ⟨lane, info⟩)
      else (q.setBucket lane bucket, some ⟨lane, info⟩)

/-- Books a response on the lane that its request used, or on the lane that owns the hash it
carries. None if the booking was broken off. -/
def book (q : Queue) (lane : Nat) (key : BucketKey) (response : Response) (now : Instant) :
    Queue × Option Booked :=
  let info := infoOf response
  let (registry, target) := match info.bucket with
    | some hash => q.registry.unify lane ⟨hash, key.major⟩ now
    | none => (q.registry, lane)
  { q with registry }.charge target info response.isRefusal now

def bucket? (q : Queue) (key : BucketKey) (now : Instant) : Queue × Option Bucket :=
  let (registry, lane) := q.registry.resolve key now
  ({ q with registry }, (registry.lane? lane).map Lane.bucket)

def cleanup (q : Queue) (idle : Duration) (now : Instant) : Queue × Nat :=
  let (registry, dropped) := q.registry.cleanup idle now
  ({ q with registry }, dropped)

def describe (q : Queue) : String :=
  "RequestQueue \x7b buckets: " ++ toString q.registry.size ++ ", hashes: " ++
    toString q.registry.hashes.size ++ ", closed: " ++ toString q.isClosed ++ " \x7d"

end Queue

end Parley.Rest
