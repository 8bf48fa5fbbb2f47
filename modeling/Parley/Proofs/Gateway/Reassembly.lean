import Parley.Gateway.Chunk

/-! A message that is cut into frames comes together again. The pieces are of the full size but for
the last, and their frames are those of one message: the first opens it, the others continue it and
the last one ends it. -/
namespace Parley.Gateway

theorem chunksOf_cons_cons (kind : ChunkKind) (p q : List UInt8) (ps : List (List UInt8)) :
    chunksOf kind (p :: q :: ps) = ⟨kind, false, p⟩ :: chunksOf .continuation (q :: ps) := rfl

/-- What a receiver has made of the frames so far. A message has the kind of its first frame. -/
structure Reassembly where
  complete : List (ChunkKind × List UInt8)
  underWay : Option (ChunkKind × List UInt8)

namespace Reassembly

/-- A message as far as it has come; with the final frame it is complete. -/
def put (r : Reassembly) (kind : ChunkKind) (bytes : List UInt8) (final : Bool) : Reassembly :=
  if final then ⟨r.complete ++ [(kind, bytes)], none⟩ else ⟨r.complete, some (kind, bytes)⟩

/-- Takes a frame. While a message is under way only its continuation is in order, and otherwise
only the start of one. -/
def take? (r : Reassembly) (c : Chunk) : Option Reassembly :=
  match r.underWay, c.kind with
  | none, .continuation => none
  | none, kind => some (r.put kind c.payload c.final)
  | some (kind, bytes), .continuation => some (r.put kind (bytes ++ c.payload) c.final)
  | some _, _ => none

def receive? (r : Reassembly) (chunks : List Chunk) : Option Reassembly := chunks.foldlM take? r

variable {kind : ChunkKind} {complete : List (ChunkKind × List UInt8)}

theorem receive?_cons (r : Reassembly) (c : Chunk) (chunks : List Chunk) :
    r.receive? (c :: chunks) = (r.take? c).bind (·.receive? chunks) := rfl

theorem take?_of_idle (hk : kind ≠ .continuation) (final : Bool) (bytes : List UInt8) :
    take? ⟨complete, none⟩ ⟨kind, final, bytes⟩ =
      some (put ⟨complete, none⟩ kind bytes final) := by
  cases kind with
  | continuation => exact absurd rfl hk
  | text => rfl
  | binary => rfl

theorem receive?_continuation (bytes : List UInt8) (p : List UInt8) (ps : List (List UInt8)) :
    receive? ⟨complete, some (kind, bytes)⟩ (chunksOf .continuation (p :: ps)) =
      some ⟨complete ++ [(kind, bytes ++ (p :: ps).flatten)], none⟩ := by
  induction ps generalizing bytes p with
  | nil => simp [chunksOf, receive?, take?, put]
  | cons q ps ih =>
    have hfirst : take? ⟨complete, some (kind, bytes)⟩ ⟨.continuation, false, p⟩ =
        some ⟨complete, some (kind, bytes ++ p)⟩ := rfl
    rw [chunksOf_cons_cons, receive?_cons, hfirst, Option.bind_some, ih (bytes ++ p) q,
      List.append_assoc]
    rfl

theorem receive?_chunksOf (hk : kind ≠ .continuation) (p : List UInt8) (ps : List (List UInt8)) :
    receive? ⟨complete, none⟩ (chunksOf kind (p :: ps)) =
      some ⟨complete ++ [(kind, (p :: ps).flatten)], none⟩ := by
  cases ps with
  | nil =>
    rw [chunksOf, receive?_cons, take?_of_idle hk]
    simp [receive?, put]
  | cons q ps =>
    rw [chunksOf_cons_cons, receive?_cons, take?_of_idle hk, Option.bind_some]
    exact receive?_continuation p q ps

end Reassembly

theorem pieces_cons (size : Nat) (b : UInt8) (bytes : List UInt8) :
    pieces size (b :: bytes) = (b :: bytes.take size) :: pieces size (bytes.drop size) := by
  rw [pieces]

theorem flatten_pieces (size : Nat) (bytes : List UInt8) : (pieces size bytes).flatten = bytes := by
  induction bytes using pieces.induct size with
  | case1 => rw [pieces, List.flatten_nil]
  | case2 b bytes ih =>
    rw [pieces_cons, List.flatten_cons, ih, List.cons_append, List.take_append_drop]

/-- All pieces are of the full size but the last, which is not empty either. -/
theorem lengths_pieces (size : Nat) {bytes : List UInt8} (hb : bytes ≠ []) :
    ∃ n tail, 0 < tail ∧ tail ≤ size + 1 ∧
      (pieces size bytes).map List.length = List.replicate n (size + 1) ++ [tail] := by
  induction bytes using pieces.induct size with
  | case1 => exact absurd rfl hb
  | case2 b bytes ih =>
    rw [pieces_cons, List.map_cons, List.length_cons, List.length_take]
    by_cases hl : bytes.length ≤ size
    · refine ⟨0, bytes.length + 1, Nat.succ_pos _, Nat.succ_le_succ hl, ?_⟩
      rw [List.drop_of_length_le hl, Nat.min_eq_right hl, pieces]
      rfl
    · have hrest : bytes.drop size ≠ [] := by
        rw [ne_eq, List.drop_eq_nil_iff]
        exact hl
      obtain ⟨n, tail, hpos, hle, heq⟩ := ih hrest
      refine ⟨n + 1, tail, hpos, hle, ?_⟩
      rw [heq, Nat.min_eq_left (Nat.le_of_not_le hl), List.replicate_succ, List.cons_append]

theorem payloads_chunksOf (kind : ChunkKind) (ps : List (List UInt8)) :
    (chunksOf kind ps).map Chunk.payload = ps := by
  induction kind, ps using chunksOf.induct with
  | case1 => rfl
  | case2 => rfl
  | case3 kind p ps hps ih =>
    obtain ⟨q, ps, rfl⟩ := List.exists_cons_of_ne_nil hps
    rw [chunksOf_cons_cons, List.map_cons, ih]

theorem kinds_chunksOf (kind : ChunkKind) (p : List UInt8) (ps : List (List UInt8)) :
    (chunksOf kind (p :: ps)).map Chunk.kind = kind :: List.replicate ps.length .continuation := by
  induction ps generalizing kind p with
  | nil => rfl
  | cons q ps ih =>
    rw [chunksOf_cons_cons, List.map_cons, ih]
    rfl

theorem finals_chunksOf (kind : ChunkKind) (p : List UInt8) (ps : List (List UInt8)) :
    (chunksOf kind (p :: ps)).map Chunk.final = List.replicate ps.length false ++ [true] := by
  induction ps generalizing kind p with
  | nil => rfl
  | cons q ps ih =>
    rw [chunksOf_cons_cons, List.map_cons, ih]
    rfl

/-- The frames of a message hold its bytes in their order. Each has as many as are allowed, which is
at least one, but for the last, which has the rest and never nothing. The first frame has the kind
of the message and the others continue it; the last one, and no other, is final. So a receiver that
waits for a message gets this one, whole and with nothing left over. -/
theorem chunks_carry_message (payload : List UInt8) (size : Nat) (isText : Bool)
    (hp : payload ≠ []) :
    let limit := max size 1
    let kind : ChunkKind := if isText then .text else .binary
    let chunks := chunkMessage payload size isText
    (∃ n tail, 0 < tail ∧ tail ≤ limit ∧
      chunks.map (fun c => c.payload.length) = List.replicate n limit ++ [tail] ∧
      chunks.map Chunk.kind = kind :: List.replicate n .continuation ∧
      chunks.map Chunk.final = List.replicate n false ++ [true]) ∧
    (chunks.map Chunk.payload).flatten = payload ∧
    ∀ complete, Reassembly.receive? ⟨complete, none⟩ chunks =
      some ⟨complete ++ [(kind, payload)], none⟩ := by
  intro limit kind chunks
  have hlimit : max size 1 - 1 + 1 = limit := Nat.sub_add_cancel (Nat.le_max_right size 1)
  have hkind : kind ≠ .continuation := by cases isText <;> decide
  have hflat : (pieces (max size 1 - 1) payload).flatten = payload := flatten_pieces _ payload
  have hpayloads : chunks.map Chunk.payload = pieces (max size 1 - 1) payload :=
    payloads_chunksOf kind _
  obtain ⟨n, tail, hpos, hle, hlengths⟩ := lengths_pieces (max size 1 - 1) hp
  rw [hlimit] at hle hlengths
  cases hps : pieces (max size 1 - 1) payload with
  | nil =>
    rw [hps] at hlengths
    simp at hlengths
  | cons p ps =>
    have hchunks : chunks = chunksOf kind (p :: ps) := congrArg (chunksOf kind) hps
    have hn : ps.length = n := by
      have hcount := congrArg List.length hlengths
      simpa [hps] using hcount
    refine ⟨⟨n, tail, hpos, hle, ?_, ?_, ?_⟩, by rw [hpayloads, hflat], fun complete => ?_⟩
    · rw [← hlengths, ← hpayloads, List.map_map]
      rfl
    · rw [hchunks, kinds_chunksOf, hn]
    · rw [hchunks, finals_chunksOf, hn]
    · rw [hchunks, Reassembly.receive?_chunksOf hkind, ← hps, hflat]

/-- Ten bytes in frames of at most four. -/
theorem tenBytes_in_three_chunks :
    let payload : List UInt8 := List.replicate 10 97
    let chunks := chunkMessage payload 4 true
    payload ≠ [] ∧ chunks.map (fun c => c.payload.length) = [4, 4, 2] ∧
      chunks.map Chunk.kind = [.text, .continuation, .continuation] ∧
      chunks.map Chunk.final = [false, false, true] ∧
      Reassembly.receive? ⟨[], none⟩ chunks = some ⟨[(.text, payload)], none⟩ := by
  intro payload chunks
  have hp : payload ≠ [] := by decide
  obtain ⟨⟨n, tail, hpos, hle, hlengths, hkinds, hfinals⟩, hflat, hreceive⟩ :=
    chunks_carry_message payload 4 true hp
  -- The pieces of the payload fill it, so there are two full ones.
  have hsum : n * 4 + tail = 10 := by
    have hlen := congrArg List.length hflat
    rw [List.length_flatten, List.map_map] at hlen
    have hsum := congrArg List.sum hlengths
    rw [List.sum_append_nat, List.sum_replicate_nat, List.sum_singleton] at hsum
    exact hsum.symm.trans hlen
  obtain rfl : n = 2 := by simp at hle; omega
  obtain rfl : tail = 2 := by omega
  exact ⟨hp, hlengths, hkinds, hfinals, hreceive []⟩

end Parley.Gateway
