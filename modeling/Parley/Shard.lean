import Parley.Json.Decode

/-! The place of a session among those that share one account. -/
namespace Parley

structure Shard where
  index : UInt32
  count : UInt32
  index_lt : index < count
deriving DecidableEq

namespace Shard

def single : Shard := ⟨0, 1, by decide⟩

instance : Inhabited Shard := ⟨single⟩

def of? (index count : UInt32) : Option Shard :=
  if h : index < count then some ⟨index, count, h⟩ else none

def invalidText (index count : UInt32) : String :=
  "invalid shard " ++ toString index.toNat ++ " of " ++ toString count.toNat

def toText (s : Shard) : String :=
  "[" ++ toString s.index.toNat ++ "/" ++ toString s.count.toNat ++ "]"

def toJson (s : Shard) : Json := .array [.ofNat s.index.toNat, .ofNat s.count.toNat]

def decode : Json.Decoder Shard
  | .array [i, n] => do of? (← Json.Decoder.uint32 i) (← Json.Decoder.uint32 n)
  | _ => none

end Shard

end Parley
