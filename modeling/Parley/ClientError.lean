import Parley.Time.Duration

/-! The failures that operations of the client report. -/
namespace Parley

inductive ClientError where
  | rateLimited (bucket : String) (retryAfter : Option Duration)
  | timeout
  | canceled
  | transportClosed (reason : String)
  | sessionFatal (reason : String)
  | server (status : UInt16) (code : Option UInt64) (reason : String)
  | http (reason : String)
  | serialization (detail : String)
  | config (reason : String)
  | internal (source : String)
deriving DecidableEq, Inhabited

namespace ClientError

def optionText : Option Duration → String
  | none => "None"
  | some d => "Some(" ++ d.describe ++ ")"

def message : ClientError → String
  | rateLimited bucket after =>
    "Rate limited on " ++ bucket ++ " (retry after " ++ optionText after ++ ")"
  | timeout => "Request timed out"
  | canceled => "Request canceled"
  | transportClosed reason => "Transport closed: " ++ reason
  | sessionFatal reason => "Session failed permanently: " ++ reason
  | server status _ reason => "Server error " ++ toString status.toNat ++ ": " ++ reason
  | http reason => "HTTP error: " ++ reason
  | serialization detail => "Serialization error: " ++ detail
  | config reason => "Configuration error: " ++ reason
  | internal _ => "Internal error"

def code : ClientError → String
  | rateLimited .. => "RATE_LIMITED"
  | timeout => "TIMEOUT"
  | canceled => "CANCELED"
  | transportClosed _ => "TRANSPORT_CLOSED"
  | sessionFatal _ => "SESSION_FATAL"
  | server .. => "SERVER_ERROR"
  | http _ => "HTTP_ERROR"
  | serialization _ => "SERIALIZATION_ERROR"
  | config _ => "CONFIG_ERROR"
  | internal _ => "INTERNAL_ERROR"

def isTransient : ClientError → Bool
  | rateLimited .. | timeout => true
  | server status .. => 502 ≤ status && status ≤ 504
  | _ => false

/-- The session is gone: reconnecting has ended or was not wanted. -/
def isSessionGone : ClientError → Bool
  | transportClosed _ | sessionFatal _ => true
  | _ => false

def status? : ClientError → Option UInt16
  | rateLimited .. => some 429
  | server status .. => some status
  | _ => none

/-- What each further receiver of one failure gets: the same failure, but an error of the
serializer becomes an internal one. -/
def duplicate : ClientError → ClientError
  | serialization detail => internal detail
  | e => e

end ClientError

end Parley
