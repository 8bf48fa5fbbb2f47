import Parley.Report.Basic
import Parley.Rest.Endpoint
import Parley.Rest.Lane
import Parley.Rest.Request
import Parley.Rest.Submission

/-! Reports of requests: routes, limits, buckets, responses and outcomes. -/
namespace Parley.Rest

open Report

def Request.report (r : Request) : Json :=
  let key := BucketKey.ofRequest r
  .object [("path", .string r.route.path), ("template", .string r.route.template),
    ("major", .ofOption .string r.route.major), ("display", .string r.route.path),
    ("request", .string r.describe), ("key", .string key.toText),
    ("key_major", .ofOption .string key.major)]

def RateLimit.report (r : RateLimit) : Json :=
  let count (n : UInt32) : Json := number n.toNat
  .object [("limit", .ofOption count r.limit), ("remaining", .ofOption count r.remaining),
    ("reset_after_ns", .ofOption duration r.resetAfter), ("bucket", .ofOption .string r.bucket),
    ("global", .bool r.isGlobal), ("retry_after_ns", .ofOption duration r.retryAfter),
    ("has_metadata", .bool r.hasMetadata), ("backoff_ns", .ofOption duration r.backoff?)]

def Response.report (r : Response) : Json :=
  let e := r.toError
  let (code, reason) := match e with
    | .server _ code reason => (code, reason)
    | e => (none, e.message)
  .object [("success", .bool r.isSuccess), ("rate_limited", .bool r.isRefusal),
    ("bad_gateway", .bool r.isBadGateway),
    ("json", result ClientError.report (fun v => .object [("ok", v)])
      (r.decode (Json.Decoder.value 0))),
    ("code", .ofOption wide code), ("reason", .string reason), ("to_error", e.report),
    ("transient", .bool e.isTransient)]

def Bucket.report (b : Bucket) : Json :=
  .object [("remaining", number b.remaining), ("limit", number b.limit),
    ("unlimited", .bool b.unlimited), ("reset_at_ns", .ofOption instant b.resetAt),
    ("hash", .ofOption .string b.hash), ("label", .string b.label),
    ("last_attempt_ns", instant b.lastAttempt)]

def Admission.report : Admission → Json
  | .granted => .string "granted"
  | .waitUntil u => .object [("wait_until_ns", instant u)]

def Endpoint.report (e : Endpoint) : Json := .object [("base_url", .string e.baseUrl)]

def reportOutcome : Outcome → Json
  | .ok r => .object [("status", number r.status.toNat),
      ("body", .string ((String.fromUTF8? ⟨r.body.toArray⟩).getD ""))]
  | .error e => e.report

end Parley.Rest
