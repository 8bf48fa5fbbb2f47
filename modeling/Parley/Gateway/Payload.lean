import Parley.Intents
import Parley.Shard
import Parley.Snowflake
import Parley.Time.Duration

/-! Payloads of the frames that set up and steer a session. -/
namespace Parley.Gateway

open Json (Decoder Record)

/-- First frame of a connection; the interval is in milliseconds. -/
structure Hello where
  heartbeatInterval : UInt64
deriving DecidableEq

namespace Hello

def interval (h : Hello) : Duration := .ofMillis h.heartbeatInterval

def toJson (h : Hello) : Json := .object [("heartbeat_interval", .ofNat h.heartbeatInterval.toNat)]

def decode : Decoder Hello := fun t => do
  let r ← Record.read? ["heartbeat_interval"] t
  some ⟨← r.required "heartbeat_interval" Decoder.uint64⟩

end Hello

inductive Status where
  | online
  | idle
  | dnd
  | invisible
  | offline
deriving DecidableEq, Inhabited

namespace Status

def names : List (String × Status) :=
  [("online", online), ("idle", idle), ("dnd", dnd), ("invisible", invisible),
    ("offline", offline)]

def name : Status → String
  | online => "online"
  | idle => "idle"
  | dnd => "dnd"
  | invisible => "invisible"
  | offline => "offline"

def toJson (s : Status) : Json := .string s.name

def decode : Decoder Status := Decoder.oneOf names

end Status

structure Activity where
  name : String
  kind : UInt8
  url : Option String
deriving DecidableEq

namespace Activity

def playing (name : String) : Activity := ⟨name, 0, none⟩

def toJson (a : Activity) : Json :=
  .object ([("name", .string a.name), ("type", .ofNat a.kind.toNat)] ++
    a.url.toList.map fun url => ("url", .string url))

def decode : Decoder Activity := fun t => do
  let r ← Record.read? ["name", "type", "url"] t
  some ⟨← r.required "name" Decoder.text, ← r.required "type" Decoder.uint8,
    ← r.withDefault "url" none (Decoder.nullable Decoder.text)⟩

end Activity

structure Presence where
  since : Option UInt64
  activities : List Activity
  status : Status
  afk : Bool
deriving DecidableEq

namespace Presence

def ofStatus (status : Status) : Presence := ⟨none, [], status, false⟩

def withActivity (p : Presence) (a : Activity) : Presence :=
  { p with activities := p.activities ++ [a] }

def toJson (p : Presence) : Json :=
  .object [("since", Json.ofOption (fun n => .ofNat n.toNat) p.since),
    ("activities", .array (p.activities.map Activity.toJson)), ("status", p.status.toJson),
    ("afk", .bool p.afk)]

def decode : Decoder Presence := fun t => do
  let r ← Record.read? ["since", "activities", "status", "afk"] t
  some ⟨← r.optional "since" Decoder.uint64,
    ← r.required "activities" (Decoder.list Activity.decode), ← r.required "status" Status.decode,
    ← r.required "afk" Decoder.bool⟩

end Presence

structure Properties where
  os : String
  browser : String
  device : String
deriving DecidableEq

namespace Properties

def ofClient (name : String) : Properties := ⟨"linux", name, name⟩

def toJson (p : Properties) : Json :=
  .object [("os", .string p.os), ("browser", .string p.browser), ("device", .string p.device)]

def decode : Decoder Properties := fun t => do
  let r ← Record.read? ["os", "browser", "device"] t
  some ⟨← r.required "os" Decoder.text, ← r.required "browser" Decoder.text,
    ← r.required "device" Decoder.text⟩

end Properties

structure Identify where
  token : String
  intents : Intents
  shard : Option Shard
  properties : Properties
  presence : Option Presence
deriving DecidableEq

namespace Identify

def create (token : String) (intents : Intents) : Identify :=
  ⟨token, intents, none, .ofClient "chat-client", none⟩

/-- A session alone on its account names no shard. -/
def withShard (i : Identify) (shard : Shard) : Identify :=
  { i with shard := if shard = .single then none else some shard }

def toJson (i : Identify) : Json :=
  .object ([("token", .string i.token), ("intents", i.intents.toJson)] ++
    (i.shard.toList.map fun s => ("shard", s.toJson)) ++
    [("properties", i.properties.toJson)] ++
    i.presence.toList.map fun p => ("presence", p.toJson))

def decode : Decoder Identify := fun t => do
  let r ← Record.read? ["token", "intents", "shard", "properties", "presence"] t
  some ⟨← r.required "token" Decoder.text, ← r.required "intents" Intents.decode,
    ← r.optional "shard" Shard.decode, ← r.required "properties" Properties.decode,
    ← r.optional "presence" Presence.decode⟩

end Identify

structure Resume where
  token : String
  sessionId : String
  sequence : UInt64
deriving DecidableEq

namespace Resume

def toJson (r : Resume) : Json :=
  .object [("token", .string r.token), ("session_id", .string r.sessionId),
    ("seq", .ofNat r.sequence.toNat)]

def decode : Decoder Resume := fun t => do
  let r ← Record.read? ["token", "session_id", "seq"] t
  some ⟨← r.required "token" Decoder.text, ← r.required "session_id" Decoder.text,
    ← r.required "seq" Decoder.uint64⟩

end Resume

/-- The part of a READY event that the session needs. -/
structure Ready where
  version : Option UInt8
  sessionId : String
  resumeUrl : Option String
  shard : Option Shard
deriving DecidableEq

def Ready.decode : Decoder Ready := fun t => do
  let r ← Record.read? ["v", "session_id", "resume_gateway_url", "shard"] t
  some ⟨← r.withDefault "v" none (Decoder.nullable Decoder.uint8),
    ← r.required "session_id" Decoder.text,
    ← r.withDefault "resume_gateway_url" none (Decoder.nullable Decoder.text),
    ← r.withDefault "shard" none (Decoder.nullable Shard.decode)⟩

/-- Asks for members of a guild: those whose names begin with `query`, or those of `userIds`. -/
structure MembersRequest where
  guildId : Snowflake
  query : Option String
  limit : UInt32
  presences : Bool
  userIds : Option (List Snowflake)
  nonce : Option String
deriving DecidableEq

namespace MembersRequest

def all (guildId : Snowflake) : MembersRequest := ⟨guildId, some "", 0, false, none, none⟩

def byIds (guildId : Snowflake) (ids : List Snowflake) : MembersRequest :=
  ⟨guildId, none, 0, false, some ids, none⟩

def toJson (m : MembersRequest) : Json :=
  .object ([("guild_id", m.guildId.toJson)] ++ (m.query.toList.map fun q => ("query", .string q)) ++
    [("limit", .ofNat m.limit.toNat), ("presences", .bool m.presences)] ++
    (m.userIds.toList.map fun ids => ("user_ids", .array (ids.map Snowflake.toJson))) ++
    m.nonce.toList.map fun n => ("nonce", .string n))

def decode : Decoder MembersRequest := fun t => do
  let r ← Record.read? ["guild_id", "query", "limit", "presences", "user_ids", "nonce"] t
  some ⟨← r.required "guild_id" Snowflake.decode, ← r.optional "query" Decoder.text,
    ← r.required "limit" Decoder.uint32, ← r.withDefault "presences" false Decoder.bool,
    ← r.optional "user_ids" (Decoder.list Snowflake.decode),
    ← r.optional "nonce" Decoder.text⟩

end MembersRequest

end Parley.Gateway
