import Parley.Json.Decode

/-! The groups of events a session asks for, as a set of bits. -/
namespace Parley

structure Intents where
  bits : UInt64
deriving DecidableEq, Inhabited, Repr

namespace Intents

/-- Names of the known bits, the lowest first. -/
def names : List String :=
  ["GUILDS", "GUILD_MEMBERS", "GUILD_MODERATION", "GUILD_EMOJIS", "GUILD_INTEGRATIONS",
    "GUILD_WEBHOOKS", "GUILD_INVITES", "GUILD_VOICE_STATES", "GUILD_PRESENCES", "GUILD_MESSAGES",
    "GUILD_MESSAGE_REACTIONS", "GUILD_MESSAGE_TYPING", "DIRECT_MESSAGES",
    "DIRECT_MESSAGE_REACTIONS", "DIRECT_MESSAGE_TYPING", "MESSAGE_CONTENT"]

def known : UInt64 := 0xFFFF

/-- Members, presences and message content: granted only by the application's settings. -/
def privileged : Intents := ⟨0x8102⟩

def unprivileged : Intents := ⟨known &&& ~~~privileged.bits⟩

/-- Guilds and their messages. -/
def standard : Intents := ⟨0x201⟩

def ofBits (bits : UInt64) : Intents := ⟨bits &&& known⟩

def contains (i : Intents) (position : Nat) : Bool :=
  (i.bits >>> UInt64.ofNat position) &&& 1 == 1

def toNames (i : Intents) : List String :=
  names.zipIdx.filterMap fun (name, position) => if i.contains position then some name else none

def isPrivileged (i : Intents) : Bool := i.bits &&& privileged.bits != 0

def toJson (i : Intents) : Json := .ofNat i.bits.toNat

def decode : Json.Decoder Intents := fun t => (Json.Decoder.uint64 t).map ofBits

end Intents

end Parley
