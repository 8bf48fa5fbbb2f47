import Parley.Binary64.Decimal
import Parley.Json.Decode
import Parley.Json.Reader
import Parley.Text.Blank
import Parley.Time.Duration

/-! What a response says about rate limits, in its headers and in the body of a refusal. -/
namespace Parley

/-- Seconds to the nearest nanosecond; none below zero or past the longest duration. -/
def Duration.ofSeconds? (x : Binary64) : Option Duration :=
  if x.negative && !x.isZero then none
  else
    let (num, den) := x.fraction
    Duration.ofNanos? (Binary64.divNearest (num * 1000000000) den)

end Parley

namespace Parley.Rest

abbrev Headers := List (String × String)

namespace Headers

def lowerAscii (s : String) : String := String.ofList (s.toList.map Char.toLower)

/-- A value that is text: visible ASCII characters, blanks and tabs. -/
def isText (value : String) : Bool :=
  value.toList.all fun c => (32 ≤ c.toNat && c.toNat ≤ 126) || c == '\t'

def text? (headers : Headers) (name : String) : Option String := do
  let (_, value) ← headers.find? fun (n, _) => lowerAscii n == name
  if isText value then some value else none

end Headers

structure RateLimit where
  limit : Option UInt32
  remaining : Option UInt32
  resetAfter : Option Duration
  bucket : Option String
  /-- The limit is that of the whole account. -/
  isGlobal : Bool
  retryAfter : Option Duration
deriving DecidableEq

namespace RateLimit

def silent : RateLimit := ⟨none, none, none, none, false, none⟩

instance : Inhabited RateLimit := ⟨silent⟩

def seconds? (s : String) : Option Duration :=
  (Binary64.ofText? (Text.trim s)).bind Duration.ofSeconds?

/-- Values that cannot be read count as absent. -/
def ofHeaders (headers : Headers) : RateLimit where
  limit := (headers.text? "x-ratelimit-limit").bind Text.readUInt32?
  remaining := (headers.text? "x-ratelimit-remaining").bind Text.readUInt32?
  resetAfter := (headers.text? "x-ratelimit-reset-after").bind seconds?
  bucket := headers.text? "x-ratelimit-bucket"
  isGlobal := (headers.text? "x-ratelimit-global").any fun v => Headers.lowerAscii v == "true"
  retryAfter := (headers.text? "retry-after").bind seconds?

def refusal : Json.Decoder (Binary64 × Bool) := fun t => do
  let r ← Json.Record.read? ["retry_after", "global"] t
  some (← r.required "retry_after" Json.Decoder.double,
    ← r.withDefault "global" false Json.Decoder.bool)

/-- Adds what the body of a refusal says; a wait from the headers stays. A body of any other shape
adds nothing. -/
def mergeBody (info : RateLimit) (body : List UInt8) : RateLimit :=
  match (Json.Tree.read? body).bind refusal with
  | none => info
  | some (seconds, isGlobal) =>
    { info with
      retryAfter := info.retryAfter <|> Duration.ofSeconds? seconds
      isGlobal := info.isGlobal || isGlobal }

def hasMetadata (info : RateLimit) : Bool :=
  info.limit.isSome || info.remaining.isSome || info.resetAfter.isSome || info.bucket.isSome ||
    info.retryAfter.isSome || info.isGlobal

def backoff? (info : RateLimit) : Option Duration := info.retryAfter <|> info.resetAfter

end RateLimit

end Parley.Rest
