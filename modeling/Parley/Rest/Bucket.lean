import Parley.Rest.RateLimit
import Parley.Rest.Request
import Parley.Time.Instant

/-! One rate limit: how many requests its window still admits, learned from responses. A limit
nothing is known about admits one request, which finds out. -/
namespace Parley.Rest

inductive Admission where
  | granted
  | waitUntil (t : Instant)
deriving DecidableEq

structure Bucket where
  key : BucketKey
  /-- Time to refill when the end of the window is not known. -/
  backoff : Duration
  limit : Nat
  remaining : Nat
  resetAt : Option Instant
  /-- A response said nothing about limits. -/
  unlimited : Bool
  learned : Bool
  hash : Option String
  lastAttempt : Instant
deriving DecidableEq

namespace Bucket

/-- A later end within this distance of the known one belongs to the same window. -/
def tolerance : Duration := .ofMillis 250

def create (key : BucketKey) (backoff : Duration) (now : Instant) : Bucket :=
  ⟨key, backoff, 1, 1, none, false, false, none, now⟩

def label (b : Bucket) : String := b.hash.getD b.key.toText

/-- A window that has ended gives way to a full one with no known end. -/
def refill (b : Bucket) (now : Instant) : Bucket :=
  match b.resetAt with
  | some reset => if reset ≤ now then { b with remaining := b.limit, resetAt := none } else b
  | none => b

/-- Takes a slot, refilling first. An empty bucket without a known end refills after the
backoff. -/
def tryAdmit (b : Bucket) (now : Instant) : Bucket × Admission :=
  let b := { b with lastAttempt := now }
  if b.unlimited then (b, .granted)
  else
    let b := b.refill now
    if b.remaining > 0 then ({ b with remaining := b.remaining - 1 }, .granted)
    else
      let reset := b.resetAt.getD (now.plus b.backoff)
      ({ b with resetAt := some reset }, .waitUntil reset)

/-- The response announces a window after the known one. None is after the clock's range. -/
def isNewWindow (known announced : Option Instant) : Bool :=
  match known, announced with
  | some current, some new => (current.after? tolerance).any (· < new)
  | _, _ => false

/-- Other ends can be told from the known one: the clock goes on for the tolerance after it. -/
def isComparable (b : Bucket) : Bool := b.resetAt.all fun known => (known.after? tolerance).isSome

/-- Learns from a response that says something about limits. Within a window a response can only
lower the count and only put off the end. -/
def learn (b : Bucket) (info : RateLimit) (announced : Option Instant) (now : Instant) : Bucket :=
  let limit := (info.limit.map UInt32.toNat).getD b.limit
  let newWindow := isNewWindow b.resetAt announced
  let remaining := match info.remaining with
    | some n => if !b.learned || newWindow then n.toNat else min b.remaining n.toNat
    | none => b.remaining
  let resetAt := match announced, b.resetAt with
    | some new, some current => some (if b.learned && !newWindow then max current new else new)
    | some new, none => some new
    | none, known => known
  let remaining := min remaining limit
  { b with
    limit, remaining
    resetAt := if remaining = 0 && resetAt.isNone then some (now.plus b.backoff) else resetAt
    learned := true
    hash := info.bucket <|> b.hash }

def learnLimit (b : Bucket) (info : RateLimit) : Bucket :=
  { b with limit := (info.limit.map UInt32.toNat).getD b.limit }

/-- Applies what a response says. If the end it announces is past the clock's range, or cannot be
compared with the known one, there is no result, and no more than the limit has been learned. A
response that says nothing lifts the limit for good. -/
def update? (b : Bucket) (info : RateLimit) (now : Instant) : Option Bucket :=
  if b.unlimited then some b
  else if !info.hasMetadata then some { b with unlimited := true }
  else
    match info.resetAfter with
    | none => some (b.learn info none now)
    | some wait =>
      if b.isComparable then
        (now.after? wait).map fun announced => b.learn info (some announced) now
      else none

/-- A refusal: nothing is admitted before `reset`. -/
def refuse (b : Bucket) (reset : Instant) : Bucket :=
  { b with remaining := 0, resetAt := some reset, learned := true, unlimited := false }

def drain (b : Bucket) : Bucket := { b with remaining := 0 }

/-- Takes a slot without asking, for a request that went through another bucket. -/
def consume (b : Bucket) : Bucket :=
  if b.unlimited then b else { b with remaining := b.remaining - 1 }

def refund (b : Bucket) : Bucket :=
  if b.unlimited then b else { b with remaining := min (b.remaining + 1) b.limit }

/-- Nobody has asked for a slot during `ttl`. A cleanup breaks off at a bucket for which the clock
cannot represent the end of that time; of this, the answer tells only that the bucket stays. -/
def isQuiet (b : Bucket) (now : Instant) (ttl : Duration) : Bool :=
  match b.lastAttempt.after? ttl with
  | some t => t ≤ now
  | none => false

end Bucket

end Parley.Rest
