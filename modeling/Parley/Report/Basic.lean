import Parley.Cache.Profile
import Parley.ClientError
import Parley.Intents
import Parley.Json.Printer
import Parley.Retry
import Parley.Shard
import Parley.Time.Instant

/-! Reports: JSON that shows a value to whoever watches a client. A count that may pass 2 ^ 53, and
every duration in nanoseconds, is decimal text, so that a reader with doubles loses no digit. -/
namespace Parley

namespace Report

def decimal (n : Nat) : Json := .string (toString n)
def wide (n : UInt64) : Json := decimal n.toNat
def number (n : Nat) : Json := .ofNat n
def duration (d : Duration) : Json := decimal d.nanos
def instant (t : Instant) : Json := decimal t.nanos
def each {α : Type} (f : α → Json) (xs : List α) : Json := .array (xs.map f)

def named (name : String) : Json := .object [("error", .string name)]

def failure (name message : String) : Json :=
  .object [("error", .string name), ("message", .string message)]

def result {ε α : Type} (bad : ε → Json) (good : α → Json) : Except ε α → Json
  | .ok a => good a
  | .error e => bad e

end Report

open Report

/-- Code and message; the serializer's own wording is left out. -/
def ClientError.reportFields (e : ClientError) : List (String × Json) :=
  match e with
  | .serialization _ => [("error", .string e.code)]
  | _ => [("error", .string e.code), ("message", .string e.message)]

def ClientError.report (e : ClientError) : Json := .object e.reportFields

def ClientError.reportFully (e : ClientError) : Json :=
  .object (e.reportFields ++
    [("transient", .bool e.isTransient), ("session_gone", .bool e.isSessionGone),
      ("status", .ofOption (fun s => number s.toNat) e.status?)])

def ClientError.reportOr : Option ClientError → Json
  | none => .string "ok"
  | some e => e.report

def Snowflake.report (id : Snowflake) : Json :=
  .object [("id", .string id.toText), ("get", wide id.value), ("timestamp_ms", wide id.unixMillis),
    ("created_at", .string id.createdAt.toText),
    ("floor", .string (Snowflake.ofUnixMillis id.unixMillis).toText)]

def Intents.report (i : Intents) : Json :=
  .object [("bits", wide i.bits), ("names", each .string i.toNames),
    ("privileged", .bool i.isPrivileged), ("wire", i.toJson)]

def Shard.report (s : Shard) : Json :=
  .object [("index", number s.index.toNat), ("count", number s.count.toNat),
    ("display", .string s.toText), ("wire", s.toJson), ("single", .bool (s == .single))]

def RetryPolicy.report (p : RetryPolicy) : Json :=
  .object [("timeouts", .bool p.timeouts), ("rate_limits", .bool p.rateLimits),
    ("bad_gateway", .bool p.badGateway), ("mode_bits", number p.bits)]

def Profile.report (p : Profile) : Json :=
  .object [("wire", p.toJson), ("display_name", .string p.displayName)]

end Parley
