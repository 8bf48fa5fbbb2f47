import Parley.Config.Logging
import Parley.Gateway.Options
import Parley.Report.Basic

/-! Reports of configurations. -/
namespace Parley

open Report

def ConfigError.kind : ConfigError → String
  | .missing _ => "MissingVar"
  | .invalid .. => "InvalidValue"

def ConfigError.report (e : ConfigError) : Json := failure e.kind e.message

def ConfigError.reportFully (e : ConfigError) : Json :=
  .object [("error", .string e.kind), ("message", .string e.message),
    ("client_error", e.toClient.report)]

def AppConfig.report (a : AppConfig) : Json :=
  .object [("name", .string a.name), ("env", .string a.stage.name),
    ("is_production", .bool (a.stage == .production)),
    ("is_development", .bool (a.stage == .development))]

def AuthConfig.report (a : AuthConfig) : Json :=
  .object [("token", .string a.token), ("debug", .string a.describe)]

def GatewayConfig.report (g : GatewayConfig) : Json :=
  .object [("url", .string g.url), ("intents_raw", wide g.intents),
    ("intents", wide g.knownIntents.bits),
    ("max_reconnect_failures", number g.maxReconnectFailures.toNat),
    ("reconnect_base_delay_ns", duration g.reconnectBaseDelay),
    ("reconnect_max_delay_ns", duration g.reconnectMaxDelay),
    ("connect_timeout_ns", duration g.connectTimeout), ("max_frame_size", wide g.maxFrameSize),
    ("dispatch_mode", .string g.dispatchMode.name), ("dispatch_capacity", wide g.dispatchCapacity),
    ("dedupe_capacity", wide g.dedupeCapacity),
    ("queue", match g.dispatchMode with
      | .inline => .string "inline"
      | .queued => .object [("queued", wide g.dispatchCapacity)])]

def RestConfig.report (r : RestConfig) : Json :=
  .object [("base_url", .string r.baseUrl), ("request_timeout_ns", duration r.requestTimeout),
    ("retry", r.retry.report), ("preemptive_backoff_ns", duration r.preemptiveBackoff),
    ("bucket_idle_ttl_ns", duration r.bucketIdleTtl)]

def ShardConfig.report (s : ShardConfig) : Json :=
  .object [("index", number s.index.toNat), ("count", number s.count.toNat),
    ("info", result ConfigError.report Shard.report s.shard)]

def LogStyle.report (l : LogStyle) : Json :=
  .object [("level", .string l.level.name), ("json", .bool l.json),
    ("span_events", .bool l.spanEvents), ("file_line", .bool l.fileLine),
    ("thread_names", .bool l.threadNames), ("thread_ids", .bool l.threadIds)]

/-- The backoff is shown by its ceilings after some counts of failures. -/
def Gateway.Options.report (o : Gateway.Options) : Json :=
  .object [("url", .string o.url), ("identify", o.identify.toJson),
    ("max_reconnect_failures", number o.maxReconnectFailures.toNat),
    ("dedupe_capacity", decimal o.dedupeCapacity),
    ("ceilings_ns",
      each (fun n => duration (o.backoff.ceiling n)) [0, 1, 2, 3, 6, 17, 18, 1000])]

def ClientConfig.report (c : ClientConfig) : Json :=
  .object [("app", c.app.report), ("auth", c.auth.report), ("gateway", c.gateway.report),
    ("rest", c.rest.report),
    ("cache", .object [("message_capacity", wide c.cache.messageCapacity)]),
    ("shard", c.shard.report), ("tracing", (LogStyle.forStage c.app.stage).report),
    ("options", result ConfigError.report Gateway.Options.report (Gateway.Options.ofConfig c))]

end Parley
