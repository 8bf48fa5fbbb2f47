import Parley.Rest.Queue

/-! One request on its way through a queue: the gate, the lane of its key, the transport, and round
again as far as its policy retries. A step leads from one point where the request waits to the next
or back to the start of a round; between two of its steps any other request may act. -/
namespace Parley.Rest

abbrev Outcome := Except ClientError Response

instance Outcome.decEq : DecidableEq Outcome
  | .ok a, .ok b => if h : a = b then isTrue (by rw [h]) else isFalse (by simpa using h)
  | .error a, .error b => if h : a = b then isTrue (by rw [h]) else isFalse (by simpa using h)
  | .ok _, .error _ => isFalse (by simp)
  | .error _, .ok _ => isFalse (by simp)

inductive Phase where
  | submitted
  | entering
  | atGate (until_ : Instant)
  | inLine (lane : Nat)
  /-- At the head of the line, until the bucket refills. -/
  | asleep (lane : Nat) (until_ : Instant)
  | sending (lane : Nat)
  | done (result : Outcome)
  /-- Given up, by its caller or over a wait that no clock can represent. -/
  | lost
deriving DecidableEq

structure Submission where
  request : Request
  terms : Terms
  badGateways : Nat
  canceled : Bool
  phase : Phase
deriving DecidableEq

inductive Wake where
  | ready
  | timer
  | turn
  | canceled
  | closed
  | deadline
  | answered (outcome : Outcome)
deriving DecidableEq

namespace Submission

/-- Answers of status 502 to 504 that one request retries. -/
def badGatewayLimit : Nat := 3

def create (request : Request) (now : Instant) : Submission :=
  ⟨request, ⟨now.plus request.options.timeout, request.options.retry⟩, 0, false, .submitted⟩

def key (s : Submission) : BucketKey := .ofRequest s.request

def signals (s : Submission) (q : Queue) : Signals := ⟨s.canceled, q.failure?⟩

def cancel (s : Submission) : Submission := { s with canceled := true }

def finish (s : Submission) (result : Outcome) : Submission := { s with phase := .done result }

def isOver (s : Submission) : Bool :=
  match s.phase with
  | .done _ | .lost => true
  | _ => false

/-- With a slot of a lane: the request is sent, unless its key has moved to another lane or the gate
has closed. Then the slot is given back and a new round begins. -/
def launch (q : Queue) (id : Nat) (s : Submission) (lane : Nat) (now : Instant) :
    Queue × Submission :=
  let (registry, current) := q.registry.resolve s.key now
  let (gate, blocked) := q.gate.blockedUntil now
  if current ≠ lane then
    ({ q with registry := registry.modifyLane lane .refund }, { s with phase := .entering })
  else if blocked.isSome then
    ({ q with registry := registry.modifyLane lane .refund, gate }, { s with phase := .entering })
  else
    ({ q with registry := registry.modifyLane lane (·.launch id), gate },
      { s with phase := .sending lane })

def settle (q : Queue) (id : Nat) (s : Submission) (number : Nat) (now : Instant) :
    Lane × Place → Queue × Submission
  | (lane, place) =>
    let q := { q with registry := q.registry.setLane number lane }
    match place with
    | .inLine => (q, { s with phase := .inLine number })
    | .asleep until_ => (q, { s with phase := .asleep number until_ })
    | .granted => launch q id s number now
    | .refused e => (q, s.finish (.error e))

/-- The start of a round: past the gate, if it is open, into the lane of the key. -/
def enter (q : Queue) (id : Nat) (s : Submission) (now : Instant) : Queue × Submission :=
  match s.terms.failure? (s.signals q) now with
  | some e => (q, s.finish (.error e))
  | none =>
    let (gate, blocked) := q.gate.blockedUntil now
    let q := { q with gate }
    match blocked with
    | some until_ =>
      match s.terms.waitFailure? (s.signals q) Gate.label now until_ with
      | some e => (q, s.finish (.error e))
      | none => (q, { s with phase := .atGate until_ })
    | none =>
      let (registry, number) := q.registry.resolve s.key now
      let q := { q with registry }
      match registry.lane? number with
      | some lane => settle q id s number now (lane.arrive id s.terms (s.signals q) now)
      | none => (q, { s with phase := .lost })

def ask (q : Queue) (id : Nat) (s : Submission) (number : Nat) (now : Instant) :
    Queue × Submission :=
  match q.registry.lane? number with
  | some lane => settle q id s number now (lane.ask id s.terms (s.signals q) now)
  | none => (q, { s with phase := .lost })

/-- Begins another round, unless the request has to end. -/
def again (q : Queue) (s : Submission) (now : Instant) : Submission :=
  match s.terms.failure? (s.signals q) now with
  | some e => s.finish (.error e)
  | none => { s with phase := .entering }

/-- The transport failed: the slot is given back, and only a timeout may be retried. -/
def onFailure (q : Queue) (s : Submission) (lane : Nat) (e : ClientError) (now : Instant) :
    Queue × Submission :=
  let q := { q with registry := q.registry.modifyLane lane .refund }
  if e = .timeout ∧ s.terms.retry.timeouts then (q, s.again q now) else (q, s.finish (.error e))

/-- The transport brought a response, which is booked before the policy is asked. -/
def onResponse (q : Queue) (s : Submission) (lane : Nat) (r : Response) (now : Instant) :
    Queue × Submission :=
  match q.book lane s.key r now with
  | (q, none) => (q, { s with phase := .lost })
  | (q, some booked) =>
    if r.isSuccess then (q, s.finish (.ok r))
    else if r.isRefusal then
      if s.terms.retry.rateLimits then (q, s.again q now)
      else
        let label := if booked.info.isGlobal then Gate.label
          else ((q.registry.lane? booked.lane).map fun l => l.bucket.label).getD ""
        (q, s.finish (.error (.rateLimited label booked.info.backoff?)))
    else if r.isBadGateway && s.terms.retry.badGateway && s.badGateways < badGatewayLimit then
      (q, { s with badGateways := s.badGateways + 1 }.again q now)
    else (q, s.finish (.error r.toError))

def land (q : Queue) (id : Nat) (s : Submission) (lane : Nat) (outcome : Outcome) (now : Instant) :
    Queue × Submission :=
  let q := { q with registry := q.registry.modifyLane lane (·.land id) }
  match outcome with
  | .ok r => onResponse q s lane r now
  | .error e => onFailure q s lane e now

/-- A request that waits gives up: it leaves its line, and a slot it holds goes back. -/
def abort (q : Queue) (id : Nat) (s : Submission) (e : ClientError) (now : Instant) :
    Queue × Submission :=
  match s.phase with
  | .inLine lane | .asleep lane _ =>
    ({ q with registry := q.registry.modifyLane lane (·.leave id) }, s.finish (.error e))
  | .sending lane => land q id s lane (.error e) now
  | _ => (q, s.finish (.error e))

/-- A request for which nobody waits any more leaves its line; a slot it holds is not given back. -/
def abandon (q : Queue) (id : Nat) (s : Submission) : Queue × Submission :=
  let q := match s.phase with
    | .inLine lane | .asleep lane _ =>
      { q with registry := q.registry.modifyLane lane (·.leave id) }
    | .sending lane => { q with registry := q.registry.modifyLane lane (·.land id) }
    | _ => q
  (q, if s.isOver then s else { s with phase := .lost })

def isWaiting (s : Submission) : Bool :=
  match s.phase with
  | .atGate _ | .inLine _ | .asleep .. | .sending _ => true
  | _ => false

def allows (q : Queue) (id : Nat) (s : Submission) (now : Instant) : Wake → Bool
  | .ready => s.phase == .submitted || s.phase == .entering
  | .timer =>
    match s.phase with
    | .atGate until_ | .asleep _ until_ => until_ ≤ now
    | _ => false
  | .turn =>
    match s.phase with
    | .inLine lane => (q.registry.lane? lane).any (·.isHead id)
    | _ => false
  | .canceled => s.isWaiting && s.canceled
  | .closed => s.isWaiting && q.isClosed
  | .deadline =>
    match s.phase with
    | .inLine _ => s.terms.deadline ≤ now
    | _ => false
  | .answered _ =>
    match s.phase with
    | .sending _ => true
    | _ => false

/-- Goes on after a wake that the phase allows; any other wake changes nothing. -/
def step (q : Queue) (id : Nat) (s : Submission) (now : Instant) (wake : Wake) :
    Queue × Submission :=
  match s.phase, wake with
  | .submitted, .ready =>
    match q.failure? with
    | some e => (q, s.finish (.error e))
    | none => (q, { s with phase := .entering })
  | .entering, .ready | .atGate _, .timer => enter q id s now
  | .inLine lane, .turn | .asleep lane _, .timer => ask q id s lane now
  | .sending lane, .answered outcome => land q id s lane outcome now
  | .inLine _, .deadline => abort q id s .timeout now
  | _, .canceled => if s.isWaiting then abort q id s .canceled now else (q, s)
  | _, .closed =>
    match q.failure? with
    | some e => if s.isWaiting then abort q id s e now else (q, s)
    | none => (q, s)
  | _, _ => (q, s)

def wakesAt? (s : Submission) : Option Instant :=
  match s.phase with
  | .atGate until_ | .asleep _ until_ => some until_
  | .inLine _ => some s.terms.deadline
  | _ => none

end Submission

end Parley.Rest
