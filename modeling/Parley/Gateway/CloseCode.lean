/-! Codes with which the gateway closes a connection, and what a session does about them. -/
namespace Parley.Gateway

inductive CloseCode where
  | unknownError
  | unknownOpcode
  | decodeError
  | notAuthenticated
  | authenticationFailed
  | alreadyAuthenticated
  | invalidSequence
  | rateLimited
  | sessionTimedOut
  | invalidShard
  | shardingRequired
  | invalidApiVersion
  | invalidIntents
  | disallowedIntents
deriving DecidableEq, Repr

inductive CloseAction where
  | resume
  | reidentify
  | fatal
deriving DecidableEq, Repr

namespace CloseAction

def forCode (code : UInt16) : CloseAction :=
  match code.toNat with
  | 4007 | 4009 => reidentify
  | 4004 | 4010 | 4011 | 4012 | 4013 | 4014 => fatal
  | _ => resume

def isFatal (a : CloseAction) : Bool := a == fatal

def name : CloseAction → String
  | resume => "Resume"
  | reidentify => "Reidentify"
  | fatal => "Fatal"

end CloseAction

namespace CloseCode

def toUInt16 : CloseCode → UInt16
  | unknownError => 4000
  | unknownOpcode => 4001
  | decodeError => 4002
  | notAuthenticated => 4003
  | authenticationFailed => 4004
  | alreadyAuthenticated => 4005
  | invalidSequence => 4007
  | rateLimited => 4008
  | sessionTimedOut => 4009
  | invalidShard => 4010
  | shardingRequired => 4011
  | invalidApiVersion => 4012
  | invalidIntents => 4013
  | disallowedIntents => 4014

def ofUInt16? (code : UInt16) : Option CloseCode :=
  match code.toNat with
  | 4000 => some unknownError
  | 4001 => some unknownOpcode
  | 4002 => some decodeError
  | 4003 => some notAuthenticated
  | 4004 => some authenticationFailed
  | 4005 => some alreadyAuthenticated
  | 4007 => some invalidSequence
  | 4008 => some rateLimited
  | 4009 => some sessionTimedOut
  | 4010 => some invalidShard
  | 4011 => some shardingRequired
  | 4012 => some invalidApiVersion
  | 4013 => some invalidIntents
  | 4014 => some disallowedIntents
  | _ => none

def description : CloseCode → String
  | unknownError => "Unknown error"
  | unknownOpcode => "Unknown opcode"
  | decodeError => "Decode error"
  | notAuthenticated => "Not authenticated"
  | authenticationFailed => "Authentication failed"
  | alreadyAuthenticated => "Already authenticated"
  | invalidSequence => "Invalid sequence"
  | rateLimited => "Rate limited"
  | sessionTimedOut => "Session timed out"
  | invalidShard => "Invalid shard"
  | shardingRequired => "Sharding required"
  | invalidApiVersion => "Invalid API version"
  | invalidIntents => "Invalid intents"
  | disallowedIntents => "Disallowed intents"

def action (c : CloseCode) : CloseAction := CloseAction.forCode c.toUInt16

def toText (c : CloseCode) : String :=
  c.description ++ " (" ++ toString c.toUInt16.toNat ++ ")"

end CloseCode

def describeClose (code : UInt16) : String :=
  match CloseCode.ofUInt16? code with
  | some known => known.toText
  | none => "Close code " ++ toString code.toNat

/-- Sent when a connection is dropped that is to be resumed. -/
def resumableClose : UInt16 := 4000

/-- Sent otherwise; the server then forgets the session. -/
def normalClose : UInt16 := 1000

end Parley.Gateway
