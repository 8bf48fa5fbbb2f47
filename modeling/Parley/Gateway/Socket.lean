import Parley.Config.Basic
import Parley.Gateway.Error

/-! Settings of the socket below a session. -/
namespace Parley.Gateway

structure Socket where
  maxFrameSize : UInt64
  connectTimeout : Duration
deriving DecidableEq

namespace Socket

def create (maxFrameSize : UInt64) : Socket := ⟨max maxFrameSize 1, .ofSecs 10⟩

def ofConfig (c : GatewayConfig) : Socket :=
  { create c.maxFrameSize with connectTimeout := c.connectTimeout }

def sendUnconnected (_ : Socket) : Error := .notConnected

def describe (s : Socket) : String :=
  "WebSocketTransport \x7b max_frame_size: " ++ toString s.maxFrameSize.toNat ++
    ", connect_timeout: " ++ s.connectTimeout.describe ++ " \x7d"

end Socket

end Parley.Gateway
