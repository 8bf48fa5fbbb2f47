import Parley.ClientError
import Parley.Rest.RateLimit

/-! Responses and the failures they stand for. -/
namespace Parley.Rest

def statusPhrases : List (Nat × String) :=
  [(100, "Continue"), (101, "Switching Protocols"), (102, "Processing"), (103, "Early Hints"),
    (200, "OK"), (201, "Created"), (202, "Accepted"), (203, "Non Authoritative Information"),
    (204, "No Content"), (205, "Reset Content"), (206, "Partial Content"), (207, "Multi-Status"),
    (208, "Already Reported"), (226, "IM Used"), (300, "Multiple Choices"),
    (301, "Moved Permanently"), (302, "Found"), (303, "See Other"), (304, "Not Modified"),
    (305, "Use Proxy"), (307, "Temporary Redirect"), (308, "Permanent Redirect"),
    (400, "Bad Request"), (401, "Unauthorized"), (402, "Payment Required"), (403, "Forbidden"),
    (404, "Not Found"), (405, "Method Not Allowed"), (406, "Not Acceptable"),
    (407, "Proxy Authentication Required"), (408, "Request Timeout"), (409, "Conflict"),
    (410, "Gone"), (411, "Length Required"), (412, "Precondition Failed"),
    (413, "Payload Too Large"), (414, "URI Too Long"), (415, "Unsupported Media Type"),
    (416, "Range Not Satisfiable"), (417, "Expectation Failed"), (418, "I'm a teapot"),
    (421, "Misdirected Request"), (422, "Unprocessable Entity"), (423, "Locked"),
    (424, "Failed Dependency"), (425, "Too Early"), (426, "Upgrade Required"),
    (428, "Precondition Required"), (429, "Too Many Requests"),
    (431, "Request Header Fields Too Large"), (451, "Unavailable For Legal Reasons"),
    (500, "Internal Server Error"), (501, "Not Implemented"), (502, "Bad Gateway"),
    (503, "Service Unavailable"), (504, "Gateway Timeout"), (505, "HTTP Version Not Supported"),
    (506, "Variant Also Negotiates"), (507, "Insufficient Storage"), (508, "Loop Detected"),
    (510, "Not Extended"), (511, "Network Authentication Required")]

structure Response where
  status : UInt16
  rateLimit : RateLimit
  body : List UInt8
deriving DecidableEq, Inhabited

namespace Response

def isSuccess (r : Response) : Bool := 200 ≤ r.status && r.status < 300

def isRefusal (r : Response) : Bool := r.status == 429

def isBadGateway (r : Response) : Bool := 502 ≤ r.status && r.status ≤ 504

def decode {α : Type} (r : Response) (d : Json.Decoder α) : Except ClientError α :=
  let tree := if r.body.isEmpty then some .null else Json.Tree.read? r.body
  match tree.bind d with
  | some a => .ok a
  | none => .error (.serialization "unexpected body")

def errorBody : Json.Decoder (Option UInt64 × Option String) := fun t => do
  let r ← Json.Record.read? ["code", "message"] t
  some (← r.withDefault "code" none (Json.Decoder.nullable Json.Decoder.uint64),
    ← r.withDefault "message" none (Json.Decoder.nullable Json.Decoder.text))

/-- The failure of a response without success: the message of its body, or else the phrase of its
status. -/
def toError (r : Response) : ClientError :=
  let (code, text) := ((Json.Tree.read? r.body).bind errorBody).getD (none, none)
  let reason := text <|> statusPhrases.lookup r.status.toNat
  .server r.status code (reason.getD "Unknown error")

end Response

end Parley.Rest
