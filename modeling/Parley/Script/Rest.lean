import Parley.Rehearsal.Requests
import Parley.Script.Entry

/-! Requests of a script and the replies to them. -/
namespace Parley.Script.Entry

def paramText : Json → String
  | .string s => s
  | v => v.render

def route (e : Entry) : Rest.Route :=
  if e.bool "fixed" then .fixed (e.text "template")
  else .create (e.text "template") ((e.list "params").map paramText)

/-- Without a method a request gets; none for a word that is no method. -/
def method? (e : Entry) : Option Rest.Method :=
  match e.text "method" with
  | "" => some .get
  | m => Rest.Method.ofText? m

def request? (e : Entry) (options : Rest.Options) : Option Rest.Request :=
  e.method?.map fun m => ⟨m, e.route, e.present? "body", options⟩

def headers (e : Entry) : Rest.Headers :=
  (e.list "headers").filterMap fun h => match h with
    | .array [.string name, .string value] => some (name, value)
    | _ => none

/-- What a response says about limits, in headers or in words. -/
def rateLimit (e : Entry) : Rest.RateLimit :=
  match e.present? "headers" with
  | some _ => .ofHeaders e.headers
  | none => ⟨e.u32? "limit", e.u32? "remaining", e.millis? "reset_after_ms", e.text? "bucket",
      e.bool "global", e.millis? "retry_after_ms"⟩

/-- Fifteen seconds and every retry but that of a timeout, if nothing is said. -/
def requestOptions (e : Entry) : Rest.Options :=
  ⟨(e.millis? "timeout_ms").getD (.ofSecs 15), .ofBits ((e.nat? "retry").getD 6)⟩

def terms (e : Entry) (now : Nat) : Rest.Terms :=
  let options := e.requestOptions
  ⟨(Instant.ofMillis now).plus options.timeout, options.retry⟩

def reply (e : Entry) : Rehearsal.Reply :=
  let delay := e.nat "delay_ms"
  if e.bool "hang" then ⟨.silence, 0⟩
  else
    match e.present? "fail" with
    | some failure => ⟨.outcome (.error failure.clientError), delay⟩
    | none =>
      ⟨.outcome (.ok ⟨e.u16 "status", e.rateLimit, (e.text "body").toUTF8.toList⟩), delay⟩

def replies (e : Entry) : List Rehearsal.Reply := (e.list "replies").map reply

end Parley.Script.Entry
