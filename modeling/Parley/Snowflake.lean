import Parley.Json.Decode
import Parley.Text.Numeral
import Parley.Time.Timestamp

/-! Identifiers that carry the millisecond of their creation in their upper 42 bits. -/
namespace Parley

structure Snowflake where
  value : UInt64
deriving DecidableEq, Inhabited, Repr

namespace Snowflake

/-- 2015-01-01T00:00:00Z in Unix milliseconds, the origin of the embedded time. -/
def epoch : UInt64 := 1420070400000

instance : LE Snowflake := ⟨fun a b => a.value ≤ b.value⟩
instance (a b : Snowflake) : Decidable (a ≤ b) := inferInstanceAs (Decidable (a.value ≤ b.value))
instance : LT Snowflake := ⟨fun a b => a.value < b.value⟩
instance (a b : Snowflake) : Decidable (a < b) := inferInstanceAs (Decidable (a.value < b.value))

def unixMillis (id : Snowflake) : UInt64 := (id.value >>> 22) + epoch

/-- The identifier whose time part is `ms`, counters zero. Times before the epoch count as the
epoch, and bits past the 42 of the time part are lost. -/
def ofUnixMillis (ms : UInt64) : Snowflake :=
  ⟨(if ms < epoch then 0 else ms - epoch) <<< 22⟩

def createdAt (id : Snowflake) : Timestamp := Timestamp.ofUnixMillis id.unixMillis.toNat

def ofText? (s : String) : Option Snowflake := (Text.readUInt64? s).map Snowflake.mk

def toText (id : Snowflake) : String := toString id.value.toNat

def parseError : String := "invalid snowflake format"

def toJson (id : Snowflake) : Json := .string id.toText

def decode : Json.Decoder Snowflake
  | .string s => do ofText? (← s)
  | t => (Json.Decoder.uint64 t).map Snowflake.mk

end Snowflake

end Parley
