import Parley.Client.Basic
import Parley.Script.Gateway

/-! The settings of a session or of a client in a script. -/
namespace Parley.Script.Entry

/-- The first reconnects of a script are quick: they wait for a tenth of a second at most. -/
def reconnectBaseMs (e : Entry) : UInt64 := (e.u64? "base_ms").getD 100
def reconnectMaxMs (e : Entry) : UInt64 := (e.u64? "max_ms").getD 1000
def gatewayUrl (e : Entry) : String := (e.text? "url").getD "wss://gateway.test"
def gatewayToken (e : Entry) : String := (e.text? "token").getD "token"
def intentBits (e : Entry) : UInt64 := (e.u64? "intents").getD 513
def maxFailures (e : Entry) : UInt32 := (e.u32? "max_failures").getD 5
def dedupeCapacity (e : Entry) : UInt64 := (e.u64? "dedupe_capacity").getD 16

def dispatchKind (e : Entry) : DispatchKind := if e.text "mode" = "inline" then .inline else .queued

def dispatchMode (e : Entry) : Gateway.DispatchMode := .ofConfig e.dispatchKind (e.nat "capacity")

def sessionOptions (e : Entry) : Gateway.Options :=
  let base := Gateway.Options.create e.gatewayUrl e.gatewayToken (.ofBits e.intentBits)
  { base with
    identify := { base.identify with presence := (e.present? "presence").map presence }
    backoff := .create (.ofMillis e.reconnectBaseMs) (.ofMillis e.reconnectMaxMs)
    maxReconnectFailures := e.maxFailures
    dedupeCapacity := e.dedupeCapacity.toNat }

def clientConfig (e : Entry) : ClientConfig :=
  let base := ClientConfig.standard e.gatewayToken
  let (index, count) := (e.shardPair? "shard").getD (base.shard.index, base.shard.count)
  { base with
    app := { base.app with name := (e.text? "app_name").getD base.app.name }
    gateway := { base.gateway with
      url := e.gatewayUrl
      intents := e.intentBits
      maxReconnectFailures := e.maxFailures
      reconnectBaseDelayMs := e.reconnectBaseMs
      reconnectMaxDelayMs := e.reconnectMaxMs
      dispatchMode := e.dispatchKind
      dispatchCapacity := e.u64 "capacity"
      dedupeCapacity := e.dedupeCapacity }
    cache := ⟨(e.u64? "message_capacity").getD base.cache.messageCapacity⟩
    shard := ⟨index, count⟩ }

end Parley.Script.Entry
