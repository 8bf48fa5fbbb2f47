import Parley.Rehearsal.Schedule
import Parley.Rest.Submission
import Parley.Rest.Sweep

/-! A rehearsal of requests to a queue over a scripted transport. -/
namespace Parley.Rehearsal

open Rest (Queue Request Response Submission Outcome Sweep Wake)

inductive Answer where
  | outcome (o : Outcome)
  | silence
deriving DecidableEq

structure Reply where
  answer : Answer
  delay : Nat
deriving DecidableEq

def Reply.standard : Reply := ⟨.outcome (.ok ⟨200, .silent, []⟩), 0⟩

structure Caller where
  submission : Submission
  script : List Reply
  /-- The answer to the send under way, and when it is there. -/
  inbound : Option (Nat × Outcome)
  sends : List Nat
  finished : Option Nat
deriving DecidableEq

namespace Caller

def create (request : Request) (script : List Reply) (now : Nat) : Caller :=
  ⟨.create request (.ofMillis now), script, none, [], none⟩

def result? (c : Caller) : Option Outcome :=
  match c.submission.phase with
  | .done r => some r
  | _ => none

def wake? (c : Caller) (q : Queue) (id now : Nat) : Option Wake :=
  let allowed := [Wake.ready, .turn, .timer].find? (c.submission.allows q id (.ofMillis now))
  let answered := match c.inbound with
    | some (due, o) => if due ≤ now then some (Wake.answered o) else none
    | none => none
  let aborted := [Wake.canceled, .closed, .deadline].find? (c.submission.allows q id (.ofMillis now))
  allowed <|> answered <|> aborted

def send (c : Caller) (now : Nat) : Caller :=
  let (reply, script) := match c.script with
    | r :: rest => (r, rest)
    | [] => (.standard, [])
  let inbound := match reply.answer with
    | .outcome o => some (now + reply.delay, o)
    | .silence => none
  { c with script, inbound, sends := c.sends ++ [now] }

def follow (c : Caller) (submission : Submission) (now : Nat) : Caller :=
  let c := { c with submission, inbound := none }
  match submission.phase with
  | .sending _ => c.send now
  | .done _ | .lost => { c with finished := some now }
  | _ => c

def moments (c : Caller) : List Nat :=
  (c.submission.wakesAt?.map Instant.firesAt).toList ++ (c.inbound.map Prod.fst).toList

end Caller

structure Requests where
  queue : Queue
  callers : Table Nat Caller
  sweeps : Table Nat Sweep

inductive RequestTask where
  | caller (id : Nat)
  | sweep (id : Nat)
deriving DecidableEq

namespace Requests

def create (queue : Queue) : Requests := ⟨queue, .empty, .empty⟩

def submit (r : Requests) (id : Nat) (request : Request) (script : List Reply) (now : Nat) :
    Requests :=
  { r with callers := r.callers.insert id (.create request script now) }

def cancel (r : Requests) (id : Nat) : Requests :=
  { r with callers := r.callers.modify id fun c => { c with submission := c.submission.cancel } }

def startSweep (r : Requests) (period idle : Duration) (now : Nat) : Requests :=
  match Sweep.start? period idle (.ofMillis now) with
  | some s => { r with sweeps := r.sweeps.insert r.sweeps.size s }
  | none => r

def tasks (r : Requests) : List RequestTask :=
  r.callers.keys.map .caller ++ r.sweeps.keys.map .sweep

def canRun (now : Nat) (r : Requests) : RequestTask → Bool
  | .caller id => ((r.callers.get? id).bind fun c => c.wake? r.queue id now).isSome
  | .sweep id => (r.sweeps.get? id).any fun s => s.isDue r.queue (.ofMillis now)

def run (now : Nat) (r : Requests) : RequestTask → Requests
  | .caller id =>
    match r.callers.get? id with
    | none => r
    | some c =>
      match c.wake? r.queue id now with
      | none => r
      | some wake =>
        let (queue, submission) := c.submission.step r.queue id (.ofMillis now) wake
        { r with queue, callers := r.callers.insert id (c.follow submission now) }
  | .sweep id =>
    match r.sweeps.get? id with
    | none => r
    | some s =>
      let (s, queue) := s.run r.queue (.ofMillis now)
      { r with queue, sweeps := r.sweeps.insert id s }

def moments (r : Requests) : List Nat :=
  r.callers.values.flatMap Caller.moments ++
    if r.queue.isClosed then [] else r.sweeps.values.map fun s => s.due.firesAt

def schedule : Schedule RequestTask Requests where
  tasks := tasks
  canRun := canRun
  run := run
  next? now r := earliest now r.moments

def isOver (r : Requests) (id : Nat) : Bool :=
  ((r.callers.get? id).map fun c => c.submission.isOver).getD true

def abandon (r : Requests) (id : Nat) : Requests :=
  match r.callers.get? id with
  | none => r
  | some c =>
    let (queue, submission) := c.submission.abandon r.queue id
    { r with queue, callers := r.callers.insert id { c with submission, inbound := none } }

end Requests

end Parley.Rehearsal
