import Parley.Proofs.Gateway.Frames
import Parley.Proofs.Json.Codecs

/-! The payloads of a client's frames come back as they were sent. Each type has its own codec, whose
decoder undoes its encoder; the frame around it is read as it was written. -/
namespace Parley

open Json (Plain Decoder Record)

namespace Snowflake

theorem decode_toJson (id : Snowflake) : decode (.ofJson id.toJson) = some id := by
  change ofText? id.toText = some id
  rw [ofText?, toText, Text.readUInt64?_toString, Option.map_some]

theorem plain_toJson (id : Snowflake) : Plain 0 id.toJson := Json.plain_string 0 _

end Snowflake

namespace Shard

theorem decode_toJson (s : Shard) : decode (.ofJson s.toJson) = some s := by
  obtain ⟨index, count, hlt⟩ := s
  simp [toJson, Json.Tree.ofJson, Json.Tree.ofItems, decode, Decoder.uint32_ofNat, of?, hlt]

theorem plain_toJson (s : Shard) : Plain 1 s.toJson := by
  have hi := s.index.toNat_lt
  have hc := s.count.toNat_lt
  refine Json.plain_array ?_
  simp only [List.mem_cons, List.not_mem_nil, or_false, forall_eq_or_imp, forall_eq]
  exact ⟨Json.plain_ofNat 0 (by omega), Json.plain_ofNat 0 (by omega)⟩

end Shard

namespace Intents

theorem decode_toJson (i : Intents) : decode (.ofJson i.toJson) = some (ofBits i.bits) := by
  rw [decode, toJson, Decoder.uint64_ofNat, Option.map_some]

theorem plain_toJson (i : Intents) : Plain 0 i.toJson := Json.plain_ofNat 0 i.bits.toNat_lt

theorem ofBits_eq_iff {i : Intents} : ofBits i.bits = i ↔ i.bits &&& known = i.bits := by
  obtain ⟨bits⟩ := i
  simp [ofBits]

end Intents

namespace Gateway

namespace Status

theorem decode_toJson (s : Status) : decode (.ofJson s.toJson) = some s := by
  cases s <;> rfl

theorem plain_toJson (s : Status) : Plain 0 s.toJson := Json.plain_string 0 _

end Status

namespace Activity

def fields (a : Activity) : List (String × Json) :=
  [("name", .string a.name), ("type", .ofNat a.kind.toNat)] ++
    a.url.toList.map fun url => ("url", .string url)

theorem nodup_fields (a : Activity) : (a.fields.map Prod.fst).Nodup := by
  cases h : a.url <;> simp [fields, h]

theorem decode_toJson (a : Activity) : decode (.ofJson a.toJson) = some a := by
  obtain ⟨r, hr, h⟩ := Record.exists_holds a.nodup_fields ["name", "type", "url"]
  change Record.read? _ (.ofJson a.toJson) = some r at hr
  rw [decode, hr]
  obtain ⟨name, kind, url⟩ := a
  cases url <;>
    simp [h.required, h.withDefault, fields, Json.lookup, Decoder.text_string,
      Decoder.uint8_ofNat, Decoder.nullable_of_ne_null]

theorem plain_toJson (a : Activity) : Plain 1 a.toJson := by
  refine Json.plain_object a.nodup_fields ?_
  have hk : a.kind.toNat < 256 := a.kind.toNat_lt
  have hkind := Json.plain_ofNat 0 (Nat.lt_trans hk (by decide))
  cases a.url <;> simp [hkind, Json.plain_string]

end Activity

namespace Presence

def fields (p : Presence) : List (String × Json) :=
  [("since", Json.ofOption (fun n => .ofNat n.toNat) p.since),
    ("activities", .array (p.activities.map Activity.toJson)), ("status", p.status.toJson),
    ("afk", .bool p.afk)]

theorem nodup_fields (p : Presence) : (p.fields.map Prod.fst).Nodup := by
  simp [fields]

theorem decode_toJson (p : Presence) : decode (.ofJson p.toJson) = some p := by
  obtain ⟨r, hr, h⟩ :=
    Record.exists_holds p.nodup_fields ["since", "activities", "status", "afk"]
  change Record.read? _ (.ofJson p.toJson) = some r at hr
  have hlist := Decoder.list_array fun a (_ : a ∈ p.activities) => a.decode_toJson
  have hsince : Decoder.nullable Decoder.uint64
      (.ofJson (Json.ofOption (fun n : UInt64 => .ofNat n.toNat) p.since)) = some p.since := by
    cases p.since with
    | none => rfl
    | some n => exact congrArg (Option.map some) (Decoder.uint64_ofNat n)
  rw [decode, hr]
  simp [h.required, h.optional, fields, Json.lookup, hsince, hlist, p.status.decode_toJson,
    Decoder.bool_bool]

theorem plain_toJson (p : Presence) : Plain 3 p.toJson := by
  have hsince : Plain 2 (Json.ofOption (fun n : UInt64 => .ofNat n.toNat) p.since) := by
    cases p.since with
    | none => exact Json.plain_null 2
    | some n => exact Json.plain_ofNat 2 n.toNat_lt
  have hlist : Plain 2 (.array (p.activities.map Activity.toJson)) := by
    refine Json.plain_array fun x hx => ?_
    obtain ⟨a, -, rfl⟩ := List.mem_map.mp hx
    exact a.plain_toJson
  refine Json.plain_object p.nodup_fields ?_
  simp [hsince, hlist, p.status.plain_toJson.mono, Json.plain_bool]

end Presence

namespace Properties

def fields (p : Properties) : List (String × Json) :=
  [("os", .string p.os), ("browser", .string p.browser), ("device", .string p.device)]

theorem nodup_fields (p : Properties) : (p.fields.map Prod.fst).Nodup := by
  simp [fields]

theorem decode_toJson (p : Properties) : decode (.ofJson p.toJson) = some p := by
  obtain ⟨r, hr, h⟩ := Record.exists_holds p.nodup_fields ["os", "browser", "device"]
  change Record.read? _ (.ofJson p.toJson) = some r at hr
  rw [decode, hr]
  simp [h.required, fields, Json.lookup, Decoder.text_string]

theorem plain_toJson (p : Properties) : Plain 1 p.toJson := by
  refine Json.plain_object p.nodup_fields ?_
  simp [Json.plain_string]

end Properties

namespace Identify

def fields (i : Identify) : List (String × Json) :=
  [("token", .string i.token), ("intents", i.intents.toJson)] ++
    (i.shard.toList.map fun s => ("shard", s.toJson)) ++
    [("properties", i.properties.toJson)] ++
    i.presence.toList.map fun p => ("presence", p.toJson)

theorem nodup_fields (i : Identify) : (i.fields.map Prod.fst).Nodup := by
  cases hs : i.shard <;> cases hp : i.presence <;> simp [fields, hs, hp]

/-- Bits that are not known are lost on the way. -/
theorem decode_toJson (i : Identify) :
    decode (.ofJson i.toJson) = some { i with intents := .ofBits i.intents.bits } := by
  obtain ⟨r, hr, h⟩ := Record.exists_holds i.nodup_fields
    ["token", "intents", "shard", "properties", "presence"]
  change Record.read? _ (.ofJson i.toJson) = some r at hr
  have hshard (s : Shard) : Decoder.nullable Shard.decode (.ofJson s.toJson) = some (some s) :=
    (Decoder.nullable_of_ne_null (by simp [Shard.toJson]) _).trans
      (congrArg (Option.map some) s.decode_toJson)
  have hpresence (p : Presence) :
      Decoder.nullable Presence.decode (.ofJson p.toJson) = some (some p) :=
    (Decoder.nullable_of_ne_null (by simp [Presence.toJson]) _).trans
      (congrArg (Option.map some) p.decode_toJson)
  rw [decode, hr]
  obtain ⟨token, intents, shard, properties, presence⟩ := i
  cases shard <;> cases presence <;>
    simp [h.required, h.optional, fields, Json.lookup, Decoder.text_string,
      Intents.decode_toJson, Properties.decode_toJson, hshard, hpresence]

theorem plain_toJson (i : Identify) : Plain 4 i.toJson := by
  refine Json.plain_object i.nodup_fields ?_
  cases i.shard <;> cases i.presence <;>
    simp [Json.plain_string, i.intents.plain_toJson.mono, i.properties.plain_toJson.mono,
      (Shard.plain_toJson _).mono, Presence.plain_toJson]

end Identify

namespace Resume

def fields (r : Resume) : List (String × Json) :=
  [("token", .string r.token), ("session_id", .string r.sessionId),
    ("seq", .ofNat r.sequence.toNat)]

theorem nodup_fields (r : Resume) : (r.fields.map Prod.fst).Nodup := by
  simp [fields]

theorem decode_toJson (p : Resume) : decode (.ofJson p.toJson) = some p := by
  obtain ⟨r, hr, h⟩ := Record.exists_holds p.nodup_fields ["token", "session_id", "seq"]
  change Record.read? _ (.ofJson p.toJson) = some r at hr
  rw [decode, hr]
  simp [h.required, fields, Json.lookup, Decoder.text_string, Decoder.uint64_ofNat]

theorem plain_toJson (r : Resume) : Plain 1 r.toJson := by
  refine Json.plain_object r.nodup_fields ?_
  simp [Json.plain_string, Json.plain_ofNat 0 r.sequence.toNat_lt]

end Resume

namespace MembersRequest

def fields (m : MembersRequest) : List (String × Json) :=
  [("guild_id", m.guildId.toJson)] ++ (m.query.toList.map fun q => ("query", .string q)) ++
    [("limit", .ofNat m.limit.toNat), ("presences", .bool m.presences)] ++
    (m.userIds.toList.map fun ids => ("user_ids", .array (ids.map Snowflake.toJson))) ++
    m.nonce.toList.map fun n => ("nonce", .string n)

theorem nodup_fields (m : MembersRequest) : (m.fields.map Prod.fst).Nodup := by
  cases hq : m.query <;> cases hu : m.userIds <;> cases hn : m.nonce <;>
    simp [fields, hq, hu, hn]

theorem decode_toJson (m : MembersRequest) : decode (.ofJson m.toJson) = some m := by
  obtain ⟨r, hr, h⟩ := Record.exists_holds m.nodup_fields
    ["guild_id", "query", "limit", "presences", "user_ids", "nonce"]
  change Record.read? _ (.ofJson m.toJson) = some r at hr
  have hids (ids : List Snowflake) :
      Decoder.nullable (Decoder.list Snowflake.decode)
        (.ofJson (.array (ids.map Snowflake.toJson))) = some (some ids) :=
    (Decoder.nullable_of_ne_null (by simp) _).trans
      (congrArg (Option.map some) (Decoder.list_array fun id _ => id.decode_toJson))
  rw [decode, hr]
  obtain ⟨guildId, query, limit, presences, userIds, nonce⟩ := m
  cases query <;> cases userIds <;> cases nonce <;>
    simp [h.required, h.optional, h.withDefault, fields, Json.lookup, Decoder.text_string,
      Decoder.bool_bool, Decoder.uint32_ofNat, Decoder.nullable_of_ne_null,
      Snowflake.decode_toJson, hids]

theorem plain_toJson (m : MembersRequest) : Plain 2 m.toJson := by
  refine Json.plain_object m.nodup_fields ?_
  have hlimit := m.limit.toNat_lt
  have hids (ids : List Snowflake) : Plain 1 (.array (ids.map Snowflake.toJson)) := by
    refine Json.plain_array fun x hx => ?_
    obtain ⟨id, -, rfl⟩ := List.mem_map.mp hx
    exact id.plain_toJson
  cases m.query <;> cases m.userIds <;> cases m.nonce <;>
    simp [Json.plain_string, Json.plain_bool, m.guildId.plain_toJson.mono, hids,
      Json.plain_ofNat 1 (Nat.lt_trans hlimit (by decide))]

end MembersRequest

namespace Frame

/-- The payload of a frame as it is decoded where the text of the frame comes in. -/
def received {α : Type} (f : Frame) (op : Opcode) (d : Decoder α) : Except ProtocolError α := do
  (← read f.render.toUTF8.toList).payloadAs op d

theorem received_command {α : Type} {payload : Json} {levels : Nat} (h : Plain levels payload)
    (hl : levels ≤ 126) (hne : payload ≠ .null) (op : Opcode) (d : Decoder α) {a : α}
    (hd : d (.ofJson payload) = some a) : (command op payload).received op d = .ok a := by
  have hread : read (command op payload).render.toUTF8.toList = .ok (command op payload).normal := by
    refine (read_render (command op payload) ?_).1
    intro p hp
    obtain rfl := Option.some.inj hp
    exact ⟨h.integral, h.wellFormed, Nat.le_trans h.depth_le hl⟩
  have hnormal : (command op payload).normal = command op payload := by
    simp [normal, command, Option.filter_some, hne]
  rw [received, hread, hnormal]
  change payloadAs (command op payload) op d = .ok a
  simp [payloadAs, command, hd]

/-- Each command that a client builds comes in with the payload that it was built from: whatever its
texts, numbers and optional parts are, and for an identification exactly if its intents have known
bits only. -/
theorem payloads_come_in_unchanged :
    (∀ i : Identify, (identify i).received .identify Identify.decode = .ok i ↔
      i.intents.bits &&& Intents.known = i.intents.bits) ∧
    (∀ r : Resume, (resume r).received .resume Resume.decode = .ok r) ∧
    (∀ p : Presence,
      (presenceUpdate p).received .presenceUpdate Presence.decode = .ok p) ∧
    ∀ m : MembersRequest,
      (requestMembers m).received .requestGuildMembers MembersRequest.decode = .ok m := by
  refine ⟨fun i => ?_, fun r => ?_, fun p => ?_, fun m => ?_⟩
  · rw [identify, received_command i.plain_toJson (by decide) (by simp [Identify.toJson]) _ _
      i.decode_toJson, Except.ok.injEq, ← Intents.ofBits_eq_iff]
    constructor
    · intro h
      exact congrArg Identify.intents h
    · intro h
      rw [h]
  · exact received_command r.plain_toJson (by decide) (by simp [Resume.toJson]) _ _
      r.decode_toJson
  · exact received_command p.plain_toJson (by decide) (by simp [Presence.toJson]) _ _
      p.decode_toJson
  · exact received_command m.plain_toJson (by decide) (by simp [MembersRequest.toJson]) _ _
      m.decode_toJson

end Frame

end Gateway

end Parley
