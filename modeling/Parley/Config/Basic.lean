import Parley.ClientError
import Parley.Intents
import Parley.Retry
import Parley.Shard

/-! Settings of the client, their defaults and their reading from JSON. -/
namespace Parley

inductive Stage where
  | development
  | staging
  | production
deriving DecidableEq, Inhabited, Repr

namespace Stage

def names : List (String × Stage) :=
  [("development", development), ("staging", staging), ("production", production)]

def name : Stage → String
  | development => "development"
  | staging => "staging"
  | production => "production"

end Stage

inductive DispatchKind where
  | queued
  | inline
deriving DecidableEq, Inhabited, Repr

namespace DispatchKind

def names : List (String × DispatchKind) := [("queued", queued), ("inline", inline)]

def name : DispatchKind → String
  | queued => "queued"
  | inline => "inline"

end DispatchKind

structure AppConfig where
  name : String
  stage : Stage
deriving DecidableEq

structure AuthConfig where
  token : String
deriving DecidableEq

/-- Description that does not show the token. -/
def AuthConfig.describe (_ : AuthConfig) : String := "AuthConfig \x7b token: \"<redacted>\" \x7d"

structure GatewayConfig where
  url : String
  intents : UInt64
  maxReconnectFailures : UInt32
  reconnectBaseDelayMs : UInt64
  reconnectMaxDelayMs : UInt64
  connectTimeoutMs : UInt64
  maxFrameSize : UInt64
  dispatchMode : DispatchKind
  /-- Zero means without bound. -/
  dispatchCapacity : UInt64
  dedupeCapacity : UInt64
deriving DecidableEq

structure RestConfig where
  baseUrl : String
  requestTimeoutMs : UInt64
  retry : RetryPolicy
  /-- Wait for a bucket whose reset is not known. -/
  preemptiveBackoffMs : UInt64
  bucketIdleTtlSecs : UInt64
deriving DecidableEq

structure CacheConfig where
  messageCapacity : UInt64
deriving DecidableEq

structure ShardConfig where
  index : UInt32
  count : UInt32
deriving DecidableEq

structure ClientConfig where
  app : AppConfig
  auth : AuthConfig
  gateway : GatewayConfig
  rest : RestConfig
  cache : CacheConfig
  shard : ShardConfig
deriving DecidableEq

inductive ConfigError where
  | missing (name : String)
  | invalid (name : String) (value : String)
deriving DecidableEq

def ConfigError.message : ConfigError → String
  | missing name => "Missing required environment variable: " ++ name
  | invalid name value => "Invalid value for " ++ name ++ ": " ++ value

def ConfigError.toClient (e : ConfigError) : ClientError := .config e.message

namespace AppConfig

def standard : AppConfig := ⟨"chat-client", .development⟩

def decode : Json.Decoder AppConfig := fun t => do
  let r ← Json.Record.read? ["name", "env"] t
  some ⟨← r.withDefault "name" standard.name Json.Decoder.text,
    ← r.withDefault "env" standard.stage (Json.Decoder.oneOf Stage.names)⟩

end AppConfig

def AuthConfig.decode : Json.Decoder AuthConfig := fun t => do
  let r ← Json.Record.read? ["token"] t
  some ⟨← r.required "token" Json.Decoder.text⟩

namespace GatewayConfig

def standard : GatewayConfig where
  url := "wss://gateway.example.com/?v=10&encoding=json"
  intents := Intents.standard.bits
  maxReconnectFailures := 10
  reconnectBaseDelayMs := 1000
  reconnectMaxDelayMs := 30000
  connectTimeoutMs := 10000
  maxFrameSize := 4096
  dispatchMode := .queued
  dispatchCapacity := 0
  dedupeCapacity := 16

def knownIntents (c : GatewayConfig) : Intents := Intents.ofBits c.intents
def reconnectBaseDelay (c : GatewayConfig) : Duration := .ofMillis c.reconnectBaseDelayMs
def reconnectMaxDelay (c : GatewayConfig) : Duration := .ofMillis c.reconnectMaxDelayMs
def connectTimeout (c : GatewayConfig) : Duration := .ofMillis c.connectTimeoutMs

def decode : Json.Decoder GatewayConfig := fun t => do
  let r ← Json.Record.read? ["url", "intents", "max_reconnect_failures", "reconnect_base_delay_ms",
    "reconnect_max_delay_ms", "connect_timeout_ms", "max_frame_size", "dispatch_mode",
    "dispatch_capacity", "dedupe_capacity"] t
  some {
    url := ← r.withDefault "url" standard.url Json.Decoder.text
    intents := ← r.withDefault "intents" standard.intents Json.Decoder.uint64
    maxReconnectFailures := ← r.withDefault "max_reconnect_failures"
      standard.maxReconnectFailures Json.Decoder.uint32
    reconnectBaseDelayMs := ← r.withDefault "reconnect_base_delay_ms"
      standard.reconnectBaseDelayMs Json.Decoder.uint64
    reconnectMaxDelayMs := ← r.withDefault "reconnect_max_delay_ms"
      standard.reconnectMaxDelayMs Json.Decoder.uint64
    connectTimeoutMs := ← r.withDefault "connect_timeout_ms"
      standard.connectTimeoutMs Json.Decoder.uint64
    maxFrameSize := ← r.withDefault "max_frame_size" standard.maxFrameSize Json.Decoder.uint64
    dispatchMode := ← r.withDefault "dispatch_mode" standard.dispatchMode
      (Json.Decoder.oneOf DispatchKind.names)
    dispatchCapacity := ← r.withDefault "dispatch_capacity"
      standard.dispatchCapacity Json.Decoder.uint64
    dedupeCapacity := ← r.withDefault "dedupe_capacity"
      standard.dedupeCapacity Json.Decoder.uint64 }

end GatewayConfig

namespace RestConfig

def standard : RestConfig where
  baseUrl := "https://api.example.com/v10"
  requestTimeoutMs := 15000
  retry := .standard
  preemptiveBackoffMs := 750
  bucketIdleTtlSecs := 60

def requestTimeout (c : RestConfig) : Duration := .ofMillis c.requestTimeoutMs
def preemptiveBackoff (c : RestConfig) : Duration := .ofMillis c.preemptiveBackoffMs
def bucketIdleTtl (c : RestConfig) : Duration := .ofSecs c.bucketIdleTtlSecs

def decode : Json.Decoder RestConfig := fun t => do
  let r ← Json.Record.read? ["base_url", "request_timeout_ms", "retry", "preemptive_backoff_ms",
    "bucket_idle_ttl_secs"] t
  some {
    baseUrl := ← r.withDefault "base_url" standard.baseUrl Json.Decoder.text
    requestTimeoutMs := ← r.withDefault "request_timeout_ms"
      standard.requestTimeoutMs Json.Decoder.uint64
    retry := ← r.withDefault "retry" standard.retry RetryPolicy.decode
    preemptiveBackoffMs := ← r.withDefault "preemptive_backoff_ms"
      standard.preemptiveBackoffMs Json.Decoder.uint64
    bucketIdleTtlSecs := ← r.withDefault "bucket_idle_ttl_secs"
      standard.bucketIdleTtlSecs Json.Decoder.uint64 }

end RestConfig

namespace CacheConfig

def standard : CacheConfig := ⟨100⟩

def decode : Json.Decoder CacheConfig := fun t => do
  let r ← Json.Record.read? ["message_capacity"] t
  some ⟨← r.withDefault "message_capacity" standard.messageCapacity Json.Decoder.uint64⟩

end CacheConfig

namespace ShardConfig

def standard : ShardConfig := ⟨0, 1⟩

def shard (c : ShardConfig) : Except ConfigError Shard :=
  match Shard.of? c.index c.count with
  | some s => .ok s
  | none => .error (.invalid "CHAT_SHARD_INDEX" (Shard.invalidText c.index c.count))

def decode : Json.Decoder ShardConfig := fun t => do
  let r ← Json.Record.read? ["index", "count"] t
  some ⟨← r.withDefault "index" standard.index Json.Decoder.uint32,
    ← r.withDefault "count" standard.count Json.Decoder.uint32⟩

end ShardConfig

namespace ClientConfig

def standard (token : String) : ClientConfig :=
  ⟨.standard, ⟨token⟩, .standard, .standard, .standard, .standard⟩

def decode : Json.Decoder ClientConfig := fun t => do
  let r ← Json.Record.read? ["app", "auth", "gateway", "rest", "cache", "shard"] t
  some ⟨← r.required "app" AppConfig.decode, ← r.required "auth" AuthConfig.decode,
    ← r.required "gateway" GatewayConfig.decode, ← r.required "rest" RestConfig.decode,
    ← r.required "cache" CacheConfig.decode, ← r.required "shard" ShardConfig.decode⟩

end ClientConfig

end Parley
