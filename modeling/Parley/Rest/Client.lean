import Parley.Config.Basic
import Parley.Rest.Submission

/-! Typed requests with the options of a configuration. -/
namespace Parley.Rest

structure Client where
  timeout : Duration
  retry : RetryPolicy
deriving DecidableEq

namespace Client

def ofConfig (c : RestConfig) : Client := ⟨c.requestTimeout, c.retry⟩

def options (c : Client) : Options := ⟨c.timeout, c.retry⟩

def request (c : Client) (method : Method) (route : Route) (body : Option Json) : Request :=
  ⟨method, route, body, c.options⟩

def read {α : Type} (d : Json.Decoder α) : Outcome → Except ClientError α
  | .ok r => r.decode d
  | .error e => .error e

end Client

end Parley.Rest
