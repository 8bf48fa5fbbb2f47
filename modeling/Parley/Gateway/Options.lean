import Parley.Config.Basic
import Parley.Gateway.Backoff
import Parley.Gateway.Payload

/-! What a session is started with. -/
namespace Parley.Gateway

structure Options where
  /-- For new sessions; a resumed one uses the address that READY gave. -/
  url : String
  identify : Identify
  backoff : Backoff
  maxReconnectFailures : UInt32
  dedupeCapacity : Nat
deriving DecidableEq

namespace Options

def create (url token : String) (intents : Intents) : Options :=
  ⟨url, .create token intents, .standard, 10, 16⟩

def ofConfig (c : ClientConfig) : Except ConfigError Options := do
  let shard ← c.shard.shard
  let identify := (Identify.create c.auth.token c.gateway.knownIntents).withShard shard
  return {
    url := c.gateway.url
    identify := { identify with properties := .ofClient c.app.name }
    backoff := .create c.gateway.reconnectBaseDelay c.gateway.reconnectMaxDelay
    maxReconnectFailures := c.gateway.maxReconnectFailures
    dedupeCapacity := c.gateway.dedupeCapacity.toNat }

end Options

end Parley.Gateway
