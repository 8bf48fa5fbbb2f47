import Parley.Gateway.Machine
import Parley.Report.Basic

/-! Reports of the gateway: opcodes, close codes, frames, events and the session machine. -/
namespace Parley.Gateway

open Report

def Opcode.report (op : Opcode) : Json :=
  .object [("value", number op.toNat), ("name", .string op.name), ("display", .string op.toText),
    ("client", .bool op.isFromClient), ("server", .bool op.isFromServer),
    ("limited", .bool op.isLimited)]

def CloseCode.report (c : CloseCode) : Json :=
  .object [("value", number c.toUInt16.toNat), ("description", .string c.description),
    ("display", .string c.toText), ("action", .string c.action.name)]

def reportClose (code : UInt16) : Json :=
  let action := CloseAction.forCode code
  .object [("known", .ofOption CloseCode.report (CloseCode.ofUInt16? code)),
    ("action", .string action.name), ("fatal", .bool action.isFatal),
    ("describe", .string (describeClose code))]

def Ready.report (r : Ready) : Json :=
  .object [("v", .ofOption (fun v => number v.toNat) r.version),
    ("session_id", .string r.sessionId), ("resume_gateway_url", .ofOption .string r.resumeUrl),
    ("shard", .ofOption Shard.toJson r.shard)]

/-- The JSON reader's own wording is left out. -/
def ProtocolError.report (e : ProtocolError) : Json :=
  match e with
  | .malformed => named "Malformed"
  | .unknownOpcode _ => failure "UnknownOpcode" e.message
  | .badPayload .. => named "BadPayload"

def reportPayload {α : Type} (f : Frame) (op : Opcode) (good : α → Json) :
    Except ProtocolError α → Json
  | .ok a => good a
  | .error e => if f.op = op then e.report else failure "BadPayload" e.message

def Frame.reportFields (f : Frame) : List (String × Json) :=
  [("op", number f.op.toNat), ("t", .ofOption .string f.kind), ("s", .ofOption wide f.sequence),
    ("d", f.payload.getD .null), ("has_d", .bool f.payload.isSome),
    ("display", .string f.describe), ("wire", f.toJson),
    ("hello", reportPayload f .hello (fun h => wide h.heartbeatInterval) f.asHello),
    ("ready", reportPayload f .dispatch Ready.report f.asReady),
    ("resumable", .bool f.isResumable)]

def Event.report (e : Event) : Json :=
  .object [("kind", .string e.kind), ("seq", .ofOption wide e.sequence), ("data", e.data)]

def CloseCause.report (c : CloseCause) : Json :=
  .object [("code", .ofOption (fun n => number n.toNat) c.code), ("reason", .string c.reason),
    ("next", .string c.next.name)]

def Delivery.reportFields : Delivery → List (String × Json)
  | .event e => [("event", e.report)]
  | .connected resumed => [("connected", .bool resumed)]
  | .closed cause => [("closed", cause.report)]

def Delivery.report (d : Delivery) : Json := .object d.reportFields

/-- A planned reconnect is shown by the bounds of its delay, and whether it keeps them. -/
def Effect.report (bounds : Duration × Duration) : Effect → Json
  | .openUrl url => .object [("open", .string url)]
  | .identify => .string "identify"
  | .resume id seq => .object [("resume", .array [.string id, wide seq])]
  | .heartbeat seq => .object [("heartbeat", .ofOption wide seq)]
  | .startHeartbeat d => .object [("start_heartbeat_ns", duration d)]
  | .stopHeartbeat => .string "stop_heartbeat"
  | .closeTransport code => .object [("close", number code.toNat)]
  | .scheduleReconnect d => .object [("reconnect", .object [("min_ns", duration bounds.1),
      ("max_ns", duration bounds.2), ("within", .bool (bounds.1 ≤ d && d ≤ bounds.2))])]
  | .deliver e => .object [("deliver", e.report)]
  | .connected resumed => .object [("connected", .bool resumed)]
  | .disconnected c => .object [("disconnected", c.report)]
  | .fatal reason => .object [("fatal", .string reason)]

def Machine.report (m : Machine) (input : Input) (effects : List Effect) : Json :=
  let bounds := match input with
    | .invalidSession _ => (Duration.ofSecs 1, Duration.ofSecs 5)
    | _ =>
      let ceiling := m.backoff.ceiling m.failures
      (ceiling.half, ceiling)
  .object [("effects", each (Effect.report bounds) effects), ("state", .string m.state.name),
    ("session_id", .ofOption .string m.sessionId), ("seq", .ofOption wide m.sequence),
    ("failures", number m.failures), ("can_resume", .bool m.canResume),
    ("latency_ns", .ofOption duration m.heartbeat.latency),
    ("fatal_reason", .ofOption .string m.fatalReason), ("live", .bool m.state.isLive),
    ("stopped", .bool m.state.isStopped)]

def Heartbeat.report (h : Heartbeat) : Json :=
  .object [("interval_ns", .ofOption duration h.interval), ("awaiting", .bool h.isAwaiting),
    ("latency_ns", .ofOption duration h.latency)]

end Parley.Gateway
