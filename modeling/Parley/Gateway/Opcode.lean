import Parley.Json.Decode

/-! Operation codes of gateway frames. -/
namespace Parley.Gateway

inductive Opcode where
  | dispatch
  | heartbeat
  | identify
  | presenceUpdate
  | voiceStateUpdate
  | resume
  | reconnect
  | requestGuildMembers
  | invalidSession
  | hello
  | heartbeatAck
deriving DecidableEq, Inhabited, Repr

namespace Opcode

def toNat : Opcode → Nat
  | dispatch => 0
  | heartbeat => 1
  | identify => 2
  | presenceUpdate => 3
  | voiceStateUpdate => 4
  | resume => 6
  | reconnect => 7
  | requestGuildMembers => 8
  | invalidSession => 9
  | hello => 10
  | heartbeatAck => 11

def ofNat? : Nat → Option Opcode
  | 0 => some dispatch
  | 1 => some heartbeat
  | 2 => some identify
  | 3 => some presenceUpdate
  | 4 => some voiceStateUpdate
  | 6 => some resume
  | 7 => some reconnect
  | 8 => some requestGuildMembers
  | 9 => some invalidSession
  | 10 => some hello
  | 11 => some heartbeatAck
  | _ => none

def name : Opcode → String
  | dispatch => "Dispatch"
  | heartbeat => "Heartbeat"
  | identify => "Identify"
  | presenceUpdate => "PresenceUpdate"
  | voiceStateUpdate => "VoiceStateUpdate"
  | resume => "Resume"
  | reconnect => "Reconnect"
  | requestGuildMembers => "RequestGuildMembers"
  | invalidSession => "InvalidSession"
  | hello => "Hello"
  | heartbeatAck => "HeartbeatAck"

def toText (op : Opcode) : String := op.name ++ " (" ++ toString op.toNat ++ ")"

def isFromClient : Opcode → Bool
  | heartbeat | identify | presenceUpdate | voiceStateUpdate | resume | requestGuildMembers => true
  | _ => false

def isFromServer : Opcode → Bool
  | dispatch | heartbeat | reconnect | invalidSession | hello | heartbeatAck => true
  | _ => false

/-- Counts against the quota of commands of a connection. -/
def isLimited (op : Opcode) : Bool := op.isFromClient && op != heartbeat

def toJson (op : Opcode) : Json := .ofNat op.toNat

def decode : Json.Decoder Opcode := fun t => do
  ofNat? (← Json.Decoder.uint8 t).toNat

end Opcode

end Parley.Gateway
