import Parley.Gateway.Session

/-! What users of a session ask of it. Each errand is a task of its own beside the session's. -/
namespace Parley.Gateway

inductive Command where
  | send (frame : Frame)
  | waitReady
  | waitClosed
  | shutdown
deriving DecidableEq

inductive Verdict where
  | outcome (failure : Option ClientError)
  | ended (state : State)
  | left
deriving DecidableEq

inductive Progress where
  | begun
  | waiting
  /-- The session was ready; a limit holds the frame back. -/
  | throttled (frame : Frame)
  | writing (frame : Frame)
  | done (verdict : Verdict)
deriving DecidableEq

structure Errand where
  command : Command
  progress : Progress
deriving DecidableEq

namespace Errand

def create (c : Command) : Errand := ⟨c, .begun⟩

def verdict? (e : Errand) : Option Verdict :=
  match e.progress with
  | .done v => some v
  | _ => none

def finish (e : Errand) (v : Verdict) : Errand := { e with progress := .done v }

/-- Asks a session to end if that is the errand. Only the first who asks waits until it has. -/
def begin (e : Errand) (s : Session) : Errand × Session :=
  match e.command with
  | .shutdown => (if s.isLeaving then e.finish .left else { e with progress := .waiting }, s.leave)
  | _ => ({ e with progress := .waiting }, s)

/-- Hands a frame to the transport, after the throttle if it is of a limited kind. -/
def write (e : Errand) (x : Surroundings) (frame : Frame) : Errand :=
  { e with
    progress := if frame.op.isLimited && !x.isClear then .throttled frame else .writing frame }

def written (e : Errand) (failure : Option Error) : Errand :=
  e.finish (.outcome (failure.map Error.toClient))

/-- What an errand does that waits for the session; none if it has to wait on. -/
def look? (e : Errand) (s : Session) (x : Surroundings) : Option Errand :=
  match e.command with
  | .send frame =>
    s.readiness?.map fun
      | none => e.write x frame
      | some failure => e.finish (.outcome (some failure))
  | .waitReady => s.readiness?.map fun failure => e.finish (.outcome failure)
  | .waitClosed => if s.state.isStopped then some (e.finish (.ended s.state)) else none
  | .shutdown => if s.isOver then some (e.finish .left) else none

def goOn (e : Errand) (s : Session) (x : Surroundings) : Errand × Session :=
  match e.progress with
  | .begun =>
    let (e, s) := e.begin s
    (if e.progress = .waiting then (e.look? s x).getD e else e, s)
  | .waiting => ((e.look? s x).getD e, s)
  | .throttled frame => (e.write x frame, s)
  | .writing _ | .done _ => (e, s)

end Errand

end Parley.Gateway
