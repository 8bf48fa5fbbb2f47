import Parley.Gateway.Frame
import Parley.Proofs.Json.RoundTrip

/-! What is written as a frame is read as that frame. -/
namespace Parley.Gateway

open Json (Tree Decoder)

namespace Opcode

theorem toNat_lt (op : Opcode) : op.toNat < UInt8.size := by cases op <;> decide

theorem ofNat?_byte (op : Opcode) : ofNat? (UInt8.ofNat op.toNat).toNat = some op := by
  cases op <;> rfl

theorem uint8_toJson (op : Opcode) :
    Decoder.uint8 (.ofJson op.toJson) = some (UInt8.ofNat op.toNat) := by
  rw [Decoder.uint8, toJson, Decoder.nat_ofNat op.toNat_lt, Option.map_some]

end Opcode

namespace Frame
variable {f : Frame}

/-- Null and no payload are the same to a reader. -/
def normal (f : Frame) : Frame := { f with payload := f.payload.filter (· ≠ .null) }

theorem toJson_normal (f : Frame) : f.normal.toJson = f.toJson := by
  obtain ⟨op, kind, sequence, payload⟩ := f
  cases payload with
  | none => rfl
  | some p =>
    by_cases hp : p = .null
    · simp [normal, toJson, hp, Option.filter_some]
    · simp [normal, toJson, hp, Option.filter_some]

theorem integral_toJson (h : ∀ p ∈ f.payload, p.Integral) : f.toJson.Integral := by
  obtain ⟨op, kind, sequence, payload⟩ := f
  have hp : (payload.getD .null).Integral := by
    cases payload with
    | none => trivial
    | some p => exact h p rfl
  cases kind <;> cases sequence <;>
    simp [toJson, Json.Integral, Json.IntegralFields, Opcode.toJson, Json.ofNat, hp]

theorem wellFormed_toJson (h : ∀ p ∈ f.payload, p.WellFormed) : f.toJson.WellFormed := by
  obtain ⟨op, kind, sequence, payload⟩ := f
  have hp : (payload.getD .null).WellFormed := by
    cases payload with
    | none => trivial
    | some p => exact h p rfl
  have hop : Number.InRange (.int op.toNat) := by
    have hlt : op.toNat < 256 := op.toNat_lt
    exact ⟨by omega, by omega⟩
  have hseq (s : UInt64) : Number.InRange (.int s.toNat) := by
    have hlt := s.toNat_lt
    exact ⟨by omega, by omega⟩
  cases kind <;> cases sequence <;>
    simp [toJson, Json.WellFormed, Json.WellFormedFields, Opcode.toJson, Json.ofNat, hp, hop, hseq]

theorem depth_toJson (f : Frame) : f.toJson.depth = (f.payload.getD .null).depth + 1 := by
  obtain ⟨op, kind, sequence, payload⟩ := f
  cases kind <;> cases sequence <;>
    simp [toJson, Json.depth, Json.depthFields, Opcode.toJson, Json.ofNat]

def members (f : Frame) : List (String × Tree) :=
  [("op", .ofJson f.op.toJson)] ++ (f.kind.toList.map fun t => ("t", .string (some t))) ++
    (f.sequence.toList.map fun s => ("s", .ofJson (.ofNat s.toNat))) ++
    [("d", .ofJson (f.payload.getD .null))]

theorem record_toJson (f : Frame) :
    Json.Record.read? ["op", "t", "s", "d"] (.ofJson f.toJson) = some ⟨false, f.members⟩ := by
  obtain ⟨op, kind, sequence, payload⟩ := f
  cases kind <;> cases sequence <;>
    simp [toJson, members, Json.Record.read?, Json.Record.keyed?, Tree.ofJson, Tree.ofFields]

theorem lookup_members (f : Frame) :
    f.members.lookup "op" = some (.ofJson f.op.toJson) ∧
    f.members.lookup "t" = f.kind.map (fun t => .string (some t)) ∧
    f.members.lookup "s" = f.sequence.map (fun s => .ofJson (.ofNat s.toNat)) ∧
    f.members.lookup "d" = some (.ofJson (f.payload.getD .null)) := by
  obtain ⟨op, kind, sequence, payload⟩ := f
  cases kind <;> cases sequence <;> simp [members, List.lookup_cons]

theorem decode_toJson (hp : ∀ p ∈ f.payload, p.WellFormed ∧ p.depth ≤ 126) :
    Envelope.decode (.ofJson f.toJson) =
      some ⟨UInt8.ofNat f.op.toNat, f.kind, f.sequence, f.normal.payload⟩ := by
  obtain ⟨hop, ht, hs, hd⟩ := f.lookup_members
  have hkind : Json.Record.withDefault ⟨false, f.members⟩ "t" none (Decoder.nullable Decoder.text) =
      some f.kind := by
    rw [Json.Record.withDefault, ht]
    cases f.kind <;> rfl
  have hsequence : Json.Record.withDefault ⟨false, f.members⟩ "s" none
      (Decoder.nullable Decoder.uint64) = some f.sequence := by
    rw [Json.Record.withDefault, hs]
    cases f.sequence with
    | none => rfl
    | some s => exact congrArg (Option.map some) (Decoder.uint64_ofNat s)
  have hpayload : Json.Record.withDefault ⟨false, f.members⟩ "d" none
      (Decoder.nullable (Decoder.value 1)) = some f.normal.payload := by
    rw [Json.Record.withDefault, hd]
    cases hf : f.payload with
    | none => simp [normal, hf, Tree.ofJson, Decoder.nullable]
    | some p =>
      obtain ⟨hw, hdepth⟩ := hp p hf
      rw [Option.getD_some, normal, hf, Option.filter_some]
      dsimp only
      rw [Decoder.nullable_value hw hdepth]
      by_cases h : p = .null <;> simp [h]
  have hcode : Json.Record.required ⟨false, f.members⟩ "op" Decoder.uint8 =
      some (UInt8.ofNat f.op.toNat) := by
    rw [Json.Record.required, hop]
    exact f.op.uint8_toJson
  rw [Envelope.decode, record_toJson]
  simp only [Option.bind_eq_bind, Option.bind_some, hcode, hkind, hsequence, hpayload]

/-- Every frame whose payload holds only integers and nests no more than 126 containers is read as
it was written, except that a payload of null is not told from none; and what is read is written
again as the same value, which is the value that the text stands for. -/
theorem read_render (f : Frame)
    (hp : ∀ p ∈ f.payload, p.Integral ∧ p.WellFormed ∧ p.depth ≤ 126) :
    Frame.read f.render.toUTF8.toList = .ok f.normal ∧ f.normal.toJson = f.toJson ∧
      Json.readText? f.render = some f.toJson := by
  have hj : f.toJson.Integral := integral_toJson fun p h => (hp p h).1
  have hw : f.toJson.WellFormed := wellFormed_toJson fun p h => (hp p h).2.1
  have hd : f.toJson.depth ≤ Json.nestingLimit := by
    rw [depth_toJson, Json.nestingLimit]
    cases hf : f.payload with
    | none => exact Nat.le_add_left 1 126
    | some p => exact Nat.succ_le_succ (hp p hf).2.2
  refine ⟨?_, toJson_normal f, Json.readText?_render hj hw hd⟩
  rw [Frame.read, render, Json.Tree.read?_render hj hw, Option.bind_some,
    decode_toJson fun p h => (hp p h).2]
  dsimp only
  rw [Opcode.ofNat?_byte]
  rfl

/-- An event with text of all sorts, the greatest sequence number and nested values. -/
def motley : Frame :=
  ⟨.dispatch, some "\"\\\n\u0001é😀", some 18446744073709551615,
    some (.object [("a\t", .array [.number (.int (-9223372036854775808)), .null, .bool true]),
      ("", .object [("a\t", .string "\r")])])⟩

theorem motley_read_render :
    (∀ p ∈ motley.payload, p.Integral ∧ p.WellFormed ∧ p.depth ≤ 126) ∧
      Frame.read motley.render.toUTF8.toList = .ok motley ∧
      Json.readText? motley.render = some motley.toJson := by
  have hp : ∀ p ∈ motley.payload, p.Integral ∧ p.WellFormed ∧ p.depth ≤ 126 := by
    intro p h
    obtain rfl := Option.some.inj h
    simp [Json.Integral, Json.IntegralFields, Json.IntegralItems, Json.WellFormed,
      Json.WellFormedFields, Json.WellFormedItems, Number.InRange, Json.depth, Json.depthFields,
      Json.depthItems]
  obtain ⟨hread, -, htext⟩ := read_render motley hp
  exact ⟨hp, hread, htext⟩

end Frame

end Parley.Gateway
