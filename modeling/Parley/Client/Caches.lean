import Parley.Cache.Messages
import Parley.Cache.Profile
import Parley.Cache.Users
import Parley.Gateway.Event

/-! What a client remembers of its events: recent messages, and the profiles of those who wrote
them. A profile is kept as long as a cached message holds a handle for it. -/
namespace Parley.Client

structure StoredMessage where
  author : Option Cache.Handle
  data : Json
deriving DecidableEq

def StoredMessage.content? (m : StoredMessage) : Option String :=
  (m.data.field? "content").bind Json.string?

structure Caches where
  messages : Cache.Messages StoredMessage
  users : Cache.Users Profile
deriving DecidableEq

namespace Caches

def create (capacity : Nat) : Caches := ⟨.create capacity, .empty⟩

def idOf? (data : Json) : Option Snowflake :=
  (data.field? "id").bind fun id => Snowflake.decode (.ofJson id)

/-- The time that a message states, or else that of its id. -/
def timestampOf (id : Snowflake) (data : Json) : Timestamp :=
  (((data.field? "timestamp").bind Json.string?).bind Timestamp.ofText?).getD id.createdAt

def forget (users : Cache.Users Profile) (m : StoredMessage) : Cache.Users Profile :=
  match m.author with
  | some h => (users.release h).1
  | none => users

/-- Takes a handle for an author, whose profile becomes the one given. -/
def author (users : Cache.Users Profile) (p : Profile) : Cache.Users Profile × Cache.Handle :=
  let taken := users.getOrCreate p.id fun _ => p
  (taken.users.write taken.handle fun _ => p, taken.handle)

/-- Caches a new message. The handle for its author is given back if it is not taken, and so are
those of the messages that it pushes out. -/
def messageCreated (c : Caches) (data : Json) : Caches :=
  match idOf? data with
  | none => c
  | some id =>
    let profile := (data.field? "author").bind fun a => Profile.decode (.ofJson a)
    let (users, handle) := match profile with
      | some p =>
        let (users, h) := author c.users p
        (users, some h)
      | none => (c.users, none)
    let message : StoredMessage := ⟨handle, data⟩
    let added := c.messages.add id (timestampOf id data) message
    let gone := if added.taken then added.evicted else [message]
    ⟨added.cache, gone.foldl forget users⟩

/-- The fields of an update over those of the message; only objects have fields. -/
def overlay (data update : Json) : Json :=
  match data, update with
  | .object fields, .object changes =>
    .object (changes.foldl (fun fields (k, v) => Json.assign k v fields) fields)
  | _, _ => data

/-- Changes a message that is cached; the new version holds a handle of its own. -/
def messageUpdated (c : Caches) (data : Json) : Caches :=
  match idOf? data with
  | none => c
  | some id =>
    match c.messages.get? id with
    | none => c
    | some old =>
      let (users, handle) := match old.author with
        | some h =>
          let (users, h) := c.users.clone h
          (users, some h)
        | none => (c.users, none)
      let (messages, _) := c.messages.replace id ⟨handle, overlay old.data data⟩
      ⟨messages, forget users old⟩

def messageDeleted (c : Caches) (data : Json) : Caches :=
  match idOf? data with
  | none => c
  | some id =>
    let (messages, removed) := c.messages.remove id
    ⟨messages, removed.toList.foldl forget c.users⟩

def userUpdated (c : Caches) (data : Json) : Caches :=
  match Profile.decode (.ofJson data) with
  | none => c
  | some p => { c with users := (c.users.update p.id fun _ => p).1 }

def apply (c : Caches) (e : Gateway.Event) : Caches :=
  match e.kind with
  | "MESSAGE_CREATE" => c.messageCreated e.data
  | "MESSAGE_UPDATE" => c.messageUpdated e.data
  | "MESSAGE_DELETE" => c.messageDeleted e.data
  | "USER_UPDATE" => c.userUpdated e.data
  | _ => c

def observe (c : Caches) : Gateway.Delivery → Caches
  | .event e => c.apply e
  | _ => c

def describe (c : Caches) : String :=
  "CachingHandler \x7b messages: " ++ c.messages.describe ++ ", users: " ++ c.users.describe ++
    " \x7d"

end Caches

structure Watched (σ : Type) where
  caches : Caches
  application : σ

def Watched.call {σ : Type} (handler : σ → Gateway.Delivery → σ) (w : Watched σ)
    (d : Gateway.Delivery) : Watched σ :=
  ⟨w.caches.observe d, handler w.application d⟩

end Parley.Client
