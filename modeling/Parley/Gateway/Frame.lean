import Parley.Gateway.Opcode
import Parley.Gateway.Payload
import Parley.Json.Printer
import Parley.Json.Reader

/-! Frames: an opcode with a payload, and for events a type and a sequence number. -/
namespace Parley.Gateway

structure Frame where
  op : Opcode
  kind : Option String
  sequence : Option UInt64
  /-- Null and absent payloads are read alike. -/
  payload : Option Json
deriving DecidableEq

inductive ProtocolError where
  | malformed
  | unknownOpcode (code : UInt8)
  | badPayload (op : Opcode) (reason : String)
deriving DecidableEq

def ProtocolError.message : ProtocolError → String
  | malformed => "Malformed frame: not a frame"
  | unknownOpcode code => "Unknown opcode " ++ toString code.toNat
  | badPayload op reason => "Unexpected payload for " ++ op.toText ++ ": " ++ reason

namespace Frame

def bare (op : Opcode) : Frame := ⟨op, none, none, none⟩

def command (op : Opcode) (payload : Json) : Frame := ⟨op, none, none, some payload⟩

def heartbeat (sequence : Option UInt64) : Frame :=
  command .heartbeat (Json.ofOption (fun n => .ofNat n.toNat) sequence)

def identify (payload : Identify) : Frame := command .identify payload.toJson
def resume (payload : Resume) : Frame := command .resume payload.toJson
def presenceUpdate (payload : Presence) : Frame := command .presenceUpdate payload.toJson
def requestMembers (payload : MembersRequest) : Frame :=
  command .requestGuildMembers payload.toJson

def dispatch (kind : String) (sequence : UInt64) (data : Json) : Frame :=
  ⟨.dispatch, some kind, some sequence, some data⟩

def hello (intervalMs : UInt64) : Frame := command .hello (Hello.toJson ⟨intervalMs⟩)

def invalidSession (resumable : Bool) : Frame := command .invalidSession (.bool resumable)

def toJson (f : Frame) : Json :=
  .object ([("op", f.op.toJson)] ++ (f.kind.toList.map fun t => ("t", .string t)) ++
    (f.sequence.toList.map fun s => ("s", .ofNat s.toNat)) ++
    [("d", f.payload.getD .null)])

def render (f : Frame) : String := f.toJson.render

/-- The parts of a frame before its opcode is known to exist. -/
structure Envelope where
  op : UInt8
  kind : Option String
  sequence : Option UInt64
  payload : Option Json

def Envelope.decode : Json.Decoder Envelope := fun t => do
  let r ← Json.Record.read? ["op", "t", "s", "d"] t
  some ⟨← r.required "op" Json.Decoder.uint8,
    ← r.withDefault "t" none (Json.Decoder.nullable Json.Decoder.text),
    ← r.withDefault "s" none (Json.Decoder.nullable Json.Decoder.uint64),
    ← r.withDefault "d" none (Json.Decoder.nullable (Json.Decoder.value 1))⟩

def read (bytes : List UInt8) : Except ProtocolError Frame :=
  match (Json.Tree.read? bytes).bind Envelope.decode with
  | none => .error .malformed
  | some e =>
    match Opcode.ofNat? e.op.toNat with
    | none => .error (.unknownOpcode e.op)
    | some op => .ok ⟨op, e.kind, e.sequence, e.payload⟩

def payloadAs {α : Type} (f : Frame) (op : Opcode) (d : Json.Decoder α) :
    Except ProtocolError α :=
  if f.op ≠ op then .error (.badPayload f.op ("expected " ++ op.toText))
  else
    match d (.ofJson (f.payload.getD .null)) with
    | some a => .ok a
    | none => .error (.badPayload op "no such payload")

def asHello (f : Frame) : Except ProtocolError Hello := f.payloadAs .hello Hello.decode

def asReady (f : Frame) : Except ProtocolError Ready := f.payloadAs .dispatch Ready.decode

/-- An invalid session that may be resumed; without a payload it may not. -/
def isResumable (f : Frame) : Bool :=
  f.op == .invalidSession && f.payload == some (.bool true)

def describe (f : Frame) : String :=
  let op := "GatewayMessage(op=" ++ f.op.toText
  match f.kind, f.sequence with
  | none, _ => op ++ ")"
  | some t, none => op ++ ", t=" ++ t ++ ")"
  | some t, some s => op ++ ", t=" ++ t ++ ", s=" ++ toString s.toNat ++ ")"

end Frame

end Parley.Gateway
