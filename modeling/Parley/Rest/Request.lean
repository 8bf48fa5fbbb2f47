import Parley.Json.Basic
import Parley.Rest.Method
import Parley.Rest.Route
import Parley.Retry
import Parley.Time.Duration

/-! Requests and the identity of the rate limit that governs them. -/
namespace Parley.Rest

/-- How long a request may take, waits included, and what it retries. -/
structure Options where
  timeout : Duration
  retry : RetryPolicy
deriving DecidableEq

def Options.standard : Options := ⟨.ofSecs 15, .standard⟩

instance : Inhabited Options := ⟨.standard⟩

structure Request where
  method : Method
  route : Route
  body : Option Json
  options : Options
deriving DecidableEq, Inhabited

def Request.describe (r : Request) : String := r.method.name ++ " " ++ r.route.path

/-- Requests of one method, template and major parameter share a limit, as far as the client knows
by itself. -/
structure BucketKey where
  method : Method
  template : String
  major : Option String
deriving DecidableEq, Inhabited

namespace BucketKey

def ofRequest (r : Request) : BucketKey := ⟨r.method, r.route.template, r.route.major⟩

def toText (k : BucketKey) : String :=
  k.method.name ++ " " ++ k.template ++
    match k.major with
    | some major => " [" ++ major ++ "]"
    | none => ""

end BucketKey

/-- The server's name for a limit, which holds for one major parameter. -/
structure BucketHash where
  hash : String
  major : Option String
deriving DecidableEq

def BucketHash.toText (h : BucketHash) : String :=
  match h.major with
  | some major => h.hash ++ ":" ++ major
  | none => h.hash

end Parley.Rest
