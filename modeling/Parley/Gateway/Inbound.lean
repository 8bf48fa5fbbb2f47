import Parley.Gateway.Frame
import Parley.Gateway.Machine

/-! What a connection brings. -/
namespace Parley.Gateway

inductive Inbound where
  | message (bytes : List UInt8)
  | closed (info : CloseInfo)
deriving DecidableEq

structure Inbox where
  unread : List Inbound
  ended : Bool
deriving DecidableEq

namespace Inbox

def empty : Inbox := ⟨[], false⟩

def receive (i : Inbox) (m : Inbound) : Inbox :=
  if i.ended then i else { i with unread := i.unread ++ [m] }

def isReadable (i : Inbox) : Bool := !i.unread.isEmpty || i.ended

end Inbox

/-- What a frame from the server means to the machine; nothing if it is malformed, is not for a
client to receive, or has a payload of the wrong form. -/
def Input.ofFrame? (f : Frame) : Option Input :=
  match f.op with
  | .dispatch =>
    match f.kind with
    | none => none
    | some kind =>
      let event : Event := ⟨kind, f.sequence, f.payload.getD .null⟩
      if kind = "READY" then f.asReady.toOption.map fun r => .dispatch event (some r)
      else some (.dispatch event none)
  | .heartbeat => some .heartbeatRequested
  | .heartbeatAck => some .heartbeatAck
  | .reconnect => some .reconnectRequested
  | .invalidSession => some (.invalidSession f.isResumable)
  | .hello => f.asHello.toOption.map fun h => .hello h.interval
  | _ => none

def Input.ofMessage? (bytes : List UInt8) : Option Input :=
  (Frame.read bytes).toOption.bind Input.ofFrame?

end Parley.Gateway
