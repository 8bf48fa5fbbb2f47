import Parley.Client.Caches
import Parley.Gateway.Session
import Parley.Rest.Client
import Parley.Rest.Sweep

/-! A client: a session, a queue of requests and the caches, under one configuration. -/
namespace Parley

structure Client where
  session : Gateway.Session
  queue : Rest.Queue
  caches : Client.Caches
  rest : Rest.Client
  sweep : Option Rest.Sweep
  /-- The task is still to run that closes the queue when the session has ended. -/
  isGuarded : Bool

namespace Client

inductive StartFailure where
  | config (error : ConfigError)
  | capacity
  | keys
deriving DecidableEq

def start (c : ClientConfig) (x : Gateway.Surroundings) : Except StartFailure Client :=
  let mode := Gateway.DispatchMode.ofConfig c.gateway.dispatchMode c.gateway.dispatchCapacity.toNat
  match Gateway.Options.ofConfig c with
  | .error e => .error (.config e)
  | .ok options =>
    if !mode.isPossible then .error .capacity
    else if !Cache.Dedupe.isPossible options.dedupeCapacity then .error .keys
    else
      .ok {
        session := .start options mode x
        queue := .create c.rest.preemptiveBackoff
        caches := .create c.cache.messageCapacity.toNat
        rest := .ofConfig c.rest
        sweep := Rest.Sweep.start? c.rest.bucketIdleTtl c.rest.bucketIdleTtl x.now
        isGuarded := true }

/-- The requests of a session that has ended learn why. -/
def guard (c : Client) : Client :=
  { c with queue := c.queue.close c.session.endReason, isGuarded := false }

def canGuard (c : Client) : Bool := c.isGuarded && c.session.state.isStopped

/-- The last act of a shutdown, when the task of the session has ended. The client's own tasks end
with it. -/
def retire (c : Client) : Client :=
  let queue := if c.queue.isClosed then c.queue
    else c.queue.close (.transportClosed "client shut down")
  { c with queue, sweep := none, isGuarded := false }

end Client

end Parley
