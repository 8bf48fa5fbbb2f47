import Parley.Config.Basic
import Parley.Text.Numeral

/-! Settings from environment variables. -/
namespace Parley

abbrev Environment := String → Option String

namespace ClientConfig

variable {α : Type}

/-- A variable read by `read?` after its blanks are trimmed, or the default when it is not set. A
value that cannot be read is reported as it was given. -/
def parsed (env : Environment) (name : String) (default : α) (read? : String → Option α) :
    Except ConfigError α :=
  match env name with
  | none => .ok default
  | some raw =>
    match read? (Text.trim raw) with
    | some v => .ok v
    | none => .error (.invalid name raw)

def stageOf (env : Environment) : Stage :=
  match env "CHAT_ENV" with
  | none => .development
  | some s => (Stage.names.lookup (Text.toLower s)).getD .development

def dispatchModeOf (env : Environment) : Except ConfigError DispatchKind :=
  match env "CHAT_DISPATCH_MODE" with
  | none => .ok GatewayConfig.standard.dispatchMode
  | some mode =>
    match DispatchKind.names.lookup (Text.toLower mode) with
    | some kind => .ok kind
    | none => .error (.invalid "CHAT_DISPATCH_MODE" mode)

def gatewayOf (env : Environment) : Except ConfigError GatewayConfig := do
  let d := GatewayConfig.standard
  let intents ← parsed env "CHAT_INTENTS" d.intents Text.readUInt64?
  let maxReconnectFailures ←
    parsed env "CHAT_MAX_RECONNECT_FAILURES" d.maxReconnectFailures Text.readUInt32?
  let reconnectBaseDelayMs ←
    parsed env "CHAT_RECONNECT_BASE_DELAY_MS" d.reconnectBaseDelayMs Text.readUInt64?
  let reconnectMaxDelayMs ←
    parsed env "CHAT_RECONNECT_MAX_DELAY_MS" d.reconnectMaxDelayMs Text.readUInt64?
  let connectTimeoutMs ← parsed env "CHAT_CONNECT_TIMEOUT_MS" d.connectTimeoutMs Text.readUInt64?
  let maxFrameSize ← parsed env "CHAT_MAX_FRAME_SIZE" d.maxFrameSize Text.readUInt64?
  let dispatchMode ← dispatchModeOf env
  let dispatchCapacity ← parsed env "CHAT_DISPATCH_CAPACITY" d.dispatchCapacity Text.readUInt64?
  let dedupeCapacity ← parsed env "CHAT_DEDUPE_CAPACITY" d.dedupeCapacity Text.readUInt64?
  return { url := (env "CHAT_GATEWAY_URL").getD d.url, intents, maxReconnectFailures,
           reconnectBaseDelayMs, reconnectMaxDelayMs, connectTimeoutMs, maxFrameSize,
           dispatchMode, dispatchCapacity, dedupeCapacity }

def restOf (env : Environment) : Except ConfigError RestConfig := do
  let d := RestConfig.standard
  let requestTimeoutMs ← parsed env "CHAT_REQUEST_TIMEOUT_MS" d.requestTimeoutMs Text.readUInt64?
  let retry ← parsed env "CHAT_RETRY_MODE" d.retry fun s => (RetryPolicy.ofText s).toOption
  let preemptiveBackoffMs ←
    parsed env "CHAT_PREEMPTIVE_BACKOFF_MS" d.preemptiveBackoffMs Text.readUInt64?
  let bucketIdleTtlSecs ←
    parsed env "CHAT_BUCKET_IDLE_TTL_SECS" d.bucketIdleTtlSecs Text.readUInt64?
  return { baseUrl := (env "CHAT_API_URL").getD d.baseUrl, requestTimeoutMs, retry,
           preemptiveBackoffMs, bucketIdleTtlSecs }

/-- Reads all variables in a fixed order; the first that fails is reported. Only the token has no
default, and index and count of the shard must fit together. -/
def ofEnvironment (env : Environment) : Except ConfigError ClientConfig := do
  let token ← match env "CHAT_TOKEN" with
    | some token => .ok token
    | none => .error (.missing "CHAT_TOKEN")
  let gateway ← gatewayOf env
  let rest ← restOf env
  let messageCapacity ← parsed env "CHAT_MESSAGE_CACHE_SIZE"
    CacheConfig.standard.messageCapacity Text.readUInt64?
  let index ← parsed env "CHAT_SHARD_INDEX" ShardConfig.standard.index Text.readUInt32?
  let count ← parsed env "CHAT_SHARD_COUNT" ShardConfig.standard.count Text.readUInt32?
  let shard : ShardConfig := ⟨index, count⟩
  let _ ← shard.shard
  return { app := ⟨(env "CHAT_APP_NAME").getD AppConfig.standard.name, stageOf env⟩,
           auth := ⟨token⟩, gateway, rest, cache := ⟨messageCapacity⟩, shard }

end ClientConfig

end Parley
