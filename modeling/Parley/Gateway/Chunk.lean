/-! Splitting of an outbound message into frames of bounded size. -/
namespace Parley.Gateway

inductive ChunkKind where
  | text
  | binary
  | continuation
deriving DecidableEq

def ChunkKind.name : ChunkKind → String
  | text => "text"
  | binary => "binary"
  | continuation => "continue"

structure Chunk where
  kind : ChunkKind
  final : Bool
  payload : List UInt8
deriving DecidableEq

/-- Consecutive pieces of `size + 1` bytes, the last one perhaps shorter. -/
def pieces (size : Nat) : List UInt8 → List (List UInt8)
  | [] => []
  | b :: bytes => (b :: bytes.take size) :: pieces size (bytes.drop size)
termination_by bytes => bytes.length
decreasing_by rw [List.length_drop, List.length_cons]; omega

def chunksOf (kind : ChunkKind) : List (List UInt8) → List Chunk
  | [] => []
  | [p] => [⟨kind, true, p⟩]
  | p :: ps => ⟨kind, false, p⟩ :: chunksOf .continuation ps

/-- Frames of at most `size` bytes, zero counting as one. An empty message has none. -/
def chunkMessage (payload : List UInt8) (size : Nat) (isText : Bool) : List Chunk :=
  chunksOf (if isText then .text else .binary) (pieces (max size 1 - 1) payload)

end Parley.Gateway
