import Parley.Gateway.Machine
import Parley.Script.Entry

/-! What the gateway and its users say and do in a script. -/
namespace Parley.Script.Entry

open Gateway (Frame Opcode Event)

def next (e : Entry) : Gateway.NextStep :=
  match e.text "next" with
  | "Resume" => .resume
  | "Reidentify" => .reidentify
  | "Fatal" => .fatal
  | _ => .shutdown

def closeInfo (e : Entry) : Gateway.CloseInfo := ⟨e.u16? "code", e.text "reason"⟩

def closeCause (e : Entry) : Gateway.CloseCause := ⟨e.u16? "code", e.text "reason", e.next⟩

def gatewayError (e : Entry) : Gateway.Error :=
  let reason := e.text "reason"
  match e.text "kind" with
  | "connect" => .connect reason
  | "send" => .send reason
  | "not_connected" => .notConnected
  | "encode" => .encode reason
  | "unknown_opcode" => .protocol (.unknownOpcode (.ofNat (e.nat "code")))
  | "bad_payload" =>
    .protocol (.badPayload ((Opcode.ofNat? (e.nat "code")).getD .heartbeatAck) reason)
  | "fatal_close" => .fatalClose (e.u16 "code")
  | "exhausted" => .exhausted (e.u32 "code").toNat
  | _ => .closed

def presence (e : Entry) : Gateway.Presence :=
  (e.texts "playing").foldl (fun p name => p.withActivity (.playing name))
    (.ofStatus ((Gateway.Status.names.lookup (e.text "status")).getD .online))

def members (e : Entry) : Gateway.MembersRequest :=
  let guild := e.snowflake "guild_id"
  let base := match e.present? "user_ids" with
    | some _ => Gateway.MembersRequest.byIds guild
        ((e.list "user_ids").filterMap fun v => (integer? v).map fun n => ⟨.ofNat n⟩)
    | none => .all guild
  { base with nonce := e.text? "nonce" }

/-- Index and count of a shard, whether or not there is such a shard. -/
def shardPair? (e : Entry) (key : String) : Option (UInt32 × UInt32) :=
  match e.list key with
  | [a, b] => do some (.ofNat (← integer? a), .ofNat (← integer? b))
  | _ => none

def identify (e : Entry) : Gateway.Identify :=
  let base := Gateway.Identify.create (e.text "token") (.ofBits (e.u64 "intents"))
  let shard := (e.shardPair? "shard").bind fun (index, count) => Shard.of? index count
  let base := match shard with
    | some s => base.withShard s
    | none => base
  let base : Gateway.Identify := match e.present? "presence" with
    | some p => { base with presence := some p.presence }
    | none => base
  match e.text? "client_name" with
  | some name => { base with properties := .ofClient name }
  | none => base

def frame (e : Entry) : Frame :=
  match e.text "kind" with
  | "heartbeat" => .heartbeat (e.u64? "seq")
  | "identify" => .identify e.identify
  | "resume" => .resume ⟨e.text "token", e.text "session_id", e.u64 "seq"⟩
  | "presence" => .presenceUpdate e.presence
  | "members" => .requestMembers e.members
  | "dispatch" => .dispatch (e.text "type") (e.u64 "seq") (e.json "data")
  | "hello" => .hello (e.u64 "interval")
  | "invalid_session" => .invalidSession (e.bool "resumable")
  | _ => .bare ((Opcode.ofNat? (e.nat "code")).getD .heartbeatAck)

def event (e : Entry) : Event := ⟨e.text "kind", e.u64? "seq", e.json "data"⟩

def delivery (e : Entry) (verb : String) : Gateway.Delivery :=
  match verb with
  | "connected" => .connected (e.bool "resumed")
  | "closed" => .closed e.closeCause
  | _ => .event e.event

/-- The input of a machine; none if its READY payload cannot be read. -/
def machineInput? (e : Entry) : Option Gateway.Input :=
  match e.text "do" with
  | "connect" => some .connect
  | "opened" => some .opened
  | "connect_failed" => some (.connectFailed (e.text "reason"))
  | "hello" => some (.hello (e.millis "ms"))
  | "dispatch" =>
    match e.present? "ready" with
    | none => some (.dispatch e.event none)
    | some r => (Gateway.Ready.decode (.ofJson r)).map fun r => .dispatch e.event (some r)
  | "tick" => some .tick
  | "heartbeat_requested" => some .heartbeatRequested
  | "ack" => some .heartbeatAck
  | "reconnect_requested" => some .reconnectRequested
  | "invalid_session" => some (.invalidSession (e.bool "resumable"))
  | "closed" => some (.closed e.closeInfo)
  | "reconnect_due" => some .reconnectDue
  | _ => some .shutdown

end Parley.Script.Entry
