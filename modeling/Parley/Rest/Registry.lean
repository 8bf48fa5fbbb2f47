import Parley.Rest.Lane
import Parley.Table

/-! The lanes of a queue by key. Keys that turn out to share a limit are redirected to one lane. -/
namespace Parley.Rest

inductive Entry where
  | owned (lane : Nat)
  | redirect (target : BucketKey)
deriving DecidableEq

/-- Lanes are numbered in order of creation. A lane without an entry lives on for the requests
that still use it. -/
structure Registry where
  backoff : Duration
  lanes : Table Nat Lane
  entries : Table BucketKey Entry
  /-- The key that was first seen with a hash. -/
  hashes : Table BucketHash BucketKey
  nextLane : Nat
deriving DecidableEq

namespace Registry

/-- Redirects followed in a lookup, and rounds of a cleanup. -/
def hopLimit : Nat := 8

def create (backoff : Duration) : Registry := ⟨backoff, .empty, .empty, .empty, 0⟩

def size (r : Registry) : Nat := r.entries.size

def lane? (r : Registry) (number : Nat) : Option Lane := r.lanes.get? number

def setLane (r : Registry) (number : Nat) (lane : Lane) : Registry :=
  { r with lanes := r.lanes.insert number lane }

def modifyLane (r : Registry) (number : Nat) (f : Lane → Lane) : Registry :=
  { r with lanes := r.lanes.modify number f }

theorem modifyLane_of_some {r : Registry} {number : Nat} {lane : Lane}
    (h : r.lane? number = some lane) (f : Lane → Lane) :
    r.modifyLane number f = r.setLane number (f lane) := by
  simp only [lane?] at h
  simp [modifyLane, setLane, Table.modify, h]

theorem modifyLane_of_none {r : Registry} {number : Nat} (h : r.lane? number = none)
    (f : Lane → Lane) : r.modifyLane number f = r := by
  simp only [lane?] at h
  simp [modifyLane, Table.modify, h]

theorem lane?_setLane (r : Registry) (number other : Nat) (lane : Lane) :
    (r.setLane number lane).lane? other = if number = other then some lane else r.lane? other :=
  Table.get?_insert r.lanes number other lane

@[simp] theorem lane?_setLane_self (r : Registry) (number : Nat) (lane : Lane) :
    (r.setLane number lane).lane? number = some lane :=
  Table.get?_insert_self r.lanes number lane

def own (r : Registry) (key : BucketKey) (now : Instant) : Registry × Nat :=
  ({ r with
     lanes := r.lanes.insert r.nextLane (.create (.create key r.backoff now))
     entries := r.entries.insert key (.owned r.nextLane)
     nextLane := r.nextLane + 1 }, r.nextLane)

/-- Follows at most `hops` entries from a key to a lane, creating the lane of a key without an
entry. -/
def follow (hops : Nat) (r : Registry) (key : BucketKey) (now : Instant) : Registry × Option Nat :=
  match hops with
  | 0 => (r, none)
  | hops + 1 =>
    match r.entries.get? key with
    | none =>
      let (r, number) := r.own key now
      (r, some number)
    | some (.owned number) => (r, some number)
    | some (.redirect target) => follow hops r target now

/-- The lane that serves a key. A key whose redirects do not end gets a new lane. -/
def resolve (r : Registry) (key : BucketKey) (now : Instant) : Registry × Nat :=
  match r.follow hopLimit key now with
  | (r, some number) => (r, number)
  | (r, none) => r.own key now

/-- Makes lanes with one hash the same lane: the first key seen with a hash owns it, and the key of
a later lane is redirected to the owner's lane. There the request that revealed the hash takes a
slot after the fact. Returns the lane that is used from now on. -/
def unify (r : Registry) (number : Nat) (hash : BucketHash) (now : Instant) : Registry × Nat :=
  match r.lane? number with
  | none => (r, number)
  | some lane =>
    let key := lane.bucket.key
    match r.hashes.get? hash with
    | none => ({ r with hashes := r.hashes.insert hash key }, number)
    | some ownerKey =>
      if ownerKey = key then (r, number)
      else
        let (r, owner) := r.resolve ownerKey now
        if owner = number then (r, number)
        else
          match r.lane? owner with
          | none => (r, number)
          | some ownerLane =>
            let entries := r.entries.insert key (.redirect ownerLane.bucket.key)
            let consumed := { ownerLane with bucket := ownerLane.bucket.consume }
            ({ r with entries }.setLane owner consumed, owner)

/-- The lane of an entry has no users and is idle. -/
def isStale (r : Registry) (idle : Duration) (now : Instant) : Entry → Bool
  | .owned number =>
    match r.lane? number with
    | some lane => !lane.inUse && lane.isIdle now idle
    | none => true
  | .redirect _ => false

def dropDangling (entries : Table BucketKey Entry) : Table BucketKey Entry :=
  entries.filter fun _ entry =>
    match entry with
    | .owned _ => true
    | .redirect target => entries.contains target

def dropDanglingRounds : Nat → Table BucketKey Entry → Table BucketKey Entry
  | 0, entries => entries
  | rounds + 1, entries => dropDanglingRounds rounds (dropDangling entries)

/-- Drops idle lanes, the redirects to them, and the hashes of keys that are gone. Also returns the
number of entries dropped. -/
def cleanup (r : Registry) (idle : Duration) (now : Instant) : Registry × Nat :=
  let kept := r.entries.filter fun _ entry => !r.isStale idle now entry
  let entries := dropDanglingRounds hopLimit kept
  let hashes := r.hashes.filter fun _ owner => entries.contains owner
  ({ r with entries, hashes }, r.entries.size - entries.size)

end Registry

end Parley.Rest
