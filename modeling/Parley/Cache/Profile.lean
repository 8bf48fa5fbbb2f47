import Parley.Snowflake

/-! Profiles of users. -/
namespace Parley

structure Profile where
  id : Snowflake
  username : String
  globalName : Option String
  avatar : Option String
  bot : Bool
deriving DecidableEq, Inhabited

namespace Profile

def named (id : Snowflake) (username : String) : Profile := ⟨id, username, none, none, false⟩

def displayName (p : Profile) : String := p.globalName.getD p.username

def toJson (p : Profile) : Json :=
  .object [("id", p.id.toJson), ("username", .string p.username),
    ("global_name", Json.ofOption .string p.globalName),
    ("avatar", Json.ofOption .string p.avatar), ("bot", .bool p.bot)]

def decode : Json.Decoder Profile := fun t => do
  let r ← Json.Record.read? ["id", "username", "global_name", "avatar", "bot"] t
  some {
    id := ← r.required "id" Snowflake.decode
    username := ← r.required "username" Json.Decoder.text
    globalName := ← r.withDefault "global_name" none (Json.Decoder.nullable Json.Decoder.text)
    avatar := ← r.withDefault "avatar" none (Json.Decoder.nullable Json.Decoder.text)
    bot := ← r.withDefault "bot" false Json.Decoder.bool }

end Profile

end Parley
