import Parley.ClientError
import Parley.Gateway.CloseCode
import Parley.Gateway.Frame

/-! Failures inside a session. -/
namespace Parley.Gateway

inductive Error where
  | connect (reason : String)
  | send (reason : String)
  | notConnected
  | encode (detail : String)
  | protocol (error : ProtocolError)
  | fatalClose (code : UInt16)
  | exhausted (attempts : Nat)
  | closed
deriving DecidableEq

namespace Error

def message : Error → String
  | connect reason => "Connect failed: " ++ reason
  | send reason => "Send failed: " ++ reason
  | notConnected => "Not connected"
  | encode detail => "Encode error: " ++ detail
  | protocol error => "Protocol error: " ++ error.message
  | fatalClose code => "Fatal close: " ++ describeClose code
  | exhausted attempts => "Gave up after " ++ toString attempts ++ " failed reconnect attempts"
  | closed => "Session closed"

def isFatal : Error → Bool
  | fatalClose _ | exhausted _ => true
  | _ => false

def toClient : Error → ClientError
  | encode detail => .serialization detail
  | e => if e.isFatal then .sessionFatal e.message else .transportClosed e.message

end Error

end Parley.Gateway
