import Parley.Config.Basic
import Parley.Gateway.Event

/-! Deliveries on their way to the application's handler, which is called with one at a time, in
order. -/
namespace Parley.Gateway

inductive DispatchMode where
  | inline
  | unbounded
  | bounded (capacity : Nat)
deriving DecidableEq, Inhabited

namespace DispatchMode

def ofConfig (kind : DispatchKind) (capacity : Nat) : DispatchMode :=
  match kind with
  | .inline => .inline
  | .queued => if capacity = 0 then .unbounded else .bounded capacity

def name : DispatchMode → String
  | inline => "inline"
  | unbounded => "unbounded"
  | bounded _ => "bounded"

/-- Greatest capacity of a bounded queue. -/
def capacityLimit : Nat := 2305843009213693951

def isPossible : DispatchMode → Bool
  | bounded capacity => capacity ≤ capacityLimit
  | _ => true

end DispatchMode

structure DispatchQueue where
  mode : DispatchMode
  /-- Count of deliveries handed over and not yet taken by the worker. -/
  pending : Nat
  waiting : List Delivery
  /-- A delivery that the session has begun to hand over. -/
  offered : Option Delivery
  call : Option Delivery
deriving DecidableEq

namespace DispatchQueue

def create (mode : DispatchMode) : DispatchQueue := ⟨mode, 0, [], none, none⟩

def hasRoom (q : DispatchQueue) : Bool :=
  match q.mode with
  | .inline => false
  | .unbounded => true
  | .bounded capacity => q.waiting.length < capacity

/-- Begins to hand over a delivery. Without a worker it is not counted. -/
def push (q : DispatchQueue) (d : Delivery) : DispatchQueue :=
  let q : DispatchQueue := if q.mode = .inline then q else { q with pending := q.pending + 1 }
  if q.hasRoom then { q with waiting := q.waiting ++ [d] } else { q with offered := some d }

def isPushing (q : DispatchQueue) : Bool :=
  q.offered.isSome || q.mode == .inline && q.call.isSome

/-- Begins the next call of the handler, if one is due. A worker that takes a delivery off a full
queue makes room for the one that is offered. -/
def take? (q : DispatchQueue) : Option (Delivery × DispatchQueue) :=
  if q.call.isSome then none
  else if q.mode = .inline then
    q.offered.map fun d => (d, { q with offered := none, call := some d })
  else
    match q.waiting with
    | d :: rest =>
      some (d, { q with
        pending := q.pending - 1, waiting := rest ++ q.offered.toList, offered := none,
        call := some d })
    | [] => none

/-- The handler has returned, or has failed, which nobody else notices. -/
def finish (q : DispatchQueue) : DispatchQueue := { q with call := none }

def isDrained (q : DispatchQueue) : Bool :=
  q.waiting.isEmpty && q.offered.isNone && q.call.isNone

def describe (q : DispatchQueue) : String :=
  "EventDispatchQueue \x7b mode: \"" ++ q.mode.name ++ "\", pending: " ++ toString q.pending ++
    " \x7d"

end DispatchQueue

end Parley.Gateway
