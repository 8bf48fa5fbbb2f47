import Parley.ClientError
import Parley.Json.Printer
import Parley.Retry
import Parley.Snowflake
import Parley.Time.Instant

/-! Scripts: JSON documents that say what happens to a client. An entry of a script is an object
whose members are read by name. Integers may be written as decimal text, and null counts as
absent. -/
namespace Parley.Script

def Entry := Json

def integer? : Json → Option Nat
  | .number n => n.toNat?
  | .string s => Text.readNat? (Nat.pow 10 40) s
  | _ => none

namespace Entry

def get? (e : Entry) (key : String) : Option Json := Json.field? key e

def present? (e : Entry) (key : String) : Option Entry :=
  match e.get? key with
  | some .null => none
  | v => v

def json (e : Entry) (key : String) : Json := (e.get? key).getD .null
def nat? (e : Entry) (key : String) : Option Nat := (e.present? key).bind integer?
def nat (e : Entry) (key : String) : Nat := (e.nat? key).getD 0
def text? (e : Entry) (key : String) : Option String := (e.present? key).bind Json.string?
def text (e : Entry) (key : String) : String := (e.text? key).getD ""
def bool (e : Entry) (key : String) : Bool := ((e.get? key).bind Json.bool?).getD false
def u64 (e : Entry) (key : String) : UInt64 := .ofNat (e.nat key)
def u64? (e : Entry) (key : String) : Option UInt64 := (e.nat? key).map .ofNat
def u32 (e : Entry) (key : String) : UInt32 := .ofNat (e.nat key)
def u32? (e : Entry) (key : String) : Option UInt32 := (e.nat? key).map .ofNat
def u16 (e : Entry) (key : String) : UInt16 := .ofNat (e.nat key)
def u16? (e : Entry) (key : String) : Option UInt16 := (e.nat? key).map .ofNat
def millis (e : Entry) (key : String) : Duration := .ofMillis (e.u64 key)
def millis? (e : Entry) (key : String) : Option Duration := (e.u64? key).map .ofMillis
def snowflake (e : Entry) (key : String) : Snowflake := ⟨e.u64 key⟩

def list (e : Entry) (key : String) : List Entry :=
  match e.get? key with
  | some (.array items) => items
  | _ => []

def texts (e : Entry) (key : String) : List String := (e.list key).filterMap Json.string?

def hexBytes : List Char → List UInt8
  | a :: b :: rest => UInt8.ofNat (digit a * 16 + digit b) :: hexBytes rest
  | _ => []
where
  digit (c : Char) : Nat := if c.isDigit then c.toNat - 48 else c.toNat - 87

def bytes (e : Entry) : List UInt8 :=
  match e.text? "hex" with
  | some h => hexBytes h.toList
  | none => (e.text "text").toUTF8.toList

def hasBytes (e : Entry) : Bool := (e.present? "hex").isSome || (e.present? "text").isSome

def clientError (e : Entry) : ClientError :=
  let reason := e.text "reason"
  match e.text "kind" with
  | "rate_limited" => .rateLimited (e.text "bucket") ((e.nat? "retry_after_ns").map .ofNanos)
  | "timeout" => .timeout
  | "canceled" => .canceled
  | "transport_closed" => .transportClosed reason
  | "session_fatal" => .sessionFatal reason
  | "server_error" => .server (e.u16 "status") (e.u64? "code") reason
  | "http" => .http reason
  | "config" => .config reason
  | "serialization" => .serialization reason
  | _ => .internal reason

end Entry

end Parley.Script
