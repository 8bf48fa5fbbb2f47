import Parley.Json.Decode
import Parley.Text.Blank
import Parley.Text.Lowercase

/-! Which failures a request waits out or repeats instead of reporting. -/
namespace Parley

structure RetryPolicy where
  timeouts : Bool
  /-- Limits of buckets and the global one, answers of status 429 included. -/
  rateLimits : Bool
  /-- Answers of status 502 to 504. -/
  badGateway : Bool
deriving DecidableEq, Repr

namespace RetryPolicy

def never : RetryPolicy := ⟨false, false, false⟩
def always : RetryPolicy := ⟨true, true, true⟩
def standard : RetryPolicy := ⟨false, true, true⟩

instance : Inhabited RetryPolicy := ⟨standard⟩

/-- Timeouts count 1, rate limits 2, bad gateways 4. -/
def bits (p : RetryPolicy) : Nat :=
  p.timeouts.toNat + 2 * p.rateLimits.toNat + 4 * p.badGateway.toNat

def ofBits (n : Nat) : RetryPolicy := ⟨n.testBit 0, n.testBit 1, n.testBit 2⟩

/-- Pieces of a text between commas; at least one. -/
def splitCommas : List Char → List (List Char)
  | [] => [[]]
  | c :: cs =>
    if c = ',' then [] :: splitCommas cs
    else
      match splitCommas cs with
      | piece :: pieces => (c :: piece) :: pieces
      | [] => [[c]]

def addNamed? (p : RetryPolicy) (name : String) : Option RetryPolicy :=
  if name = "timeouts" ∨ name = "timeout" then some { p with timeouts := true }
  else if name = "ratelimit" ∨ name = "ratelimits" ∨ name = "rate_limit" then
    some { p with rateLimits := true }
  else if name = "502" ∨ name = "bad_gateway" then some { p with badGateway := true }
  else none

/-- Adds the names in turn; the first unknown one, in lower case, is the error. -/
def addAll (p : RetryPolicy) : List (List Char) → Except String RetryPolicy
  | [] => .ok p
  | part :: parts =>
    let name := Text.toLower (String.ofList (Text.trimChars part))
    match addNamed? p name with
    | some q => addAll q parts
    | none => .error name

/-- Reads `always`, `never`, nothing, or names between commas; case and blanks around a name do
not matter. -/
def ofText (s : String) : Except String RetryPolicy :=
  let whole := Text.toLower (Text.trim s)
  if whole = "always" then .ok always
  else if whole = "never" ∨ whole = "" then .ok never
  else addAll never (splitCommas s.toList)

def decode : Json.Decoder RetryPolicy := fun t => do
  let r ← Json.Record.read? ["timeouts", "rate_limits", "bad_gateway"] t
  some ⟨← r.required "timeouts" Json.Decoder.bool, ← r.required "rate_limits" Json.Decoder.bool,
    ← r.required "bad_gateway" Json.Decoder.bool⟩

end RetryPolicy

end Parley
