import Parley.Rehearsal.Play
import Parley.Report.Gateway
import Parley.Report.Rest

/-! Reports of rehearsals. -/
namespace Parley

open Report

def Client.Caches.reportMessage (c : Client.Caches) (id : Snowflake)
    (e : Cache.Entry Client.StoredMessage) : Json :=
  let author (h : Cache.Handle) : Json :=
    .array [.string h.id.toText, .ofOption (fun p => .string p.displayName) (c.users.read? h),
      number (c.users.refCount h.id)]
  .object [("id", .string id.toText), ("ts", .string e.timestamp.toText),
    ("author", .ofOption author e.value.author), ("content", .ofOption .string e.value.content?),
    ("data", e.value.data)]

def Client.Caches.reportFields (c : Client.Caches) : List (String × Json) :=
  [("messages", each (fun (id, e) => c.reportMessage id e) c.messages.all),
    ("users", number c.users.size)]

namespace Rehearsal

def Wire.report : Wire → Json
  | .connect url => .object [("connect", .string url)]
  | .send frame => .object [("send", frame.toJson), ("text", .bool true)]
  | .close code => .object [("close", number code.toNat)]

def Caller.reportSends (c : Caller) : Json :=
  each (fun t => .object [("t", number t), ("request", .string c.submission.request.describe),
    ("body", .ofOption id c.submission.request.body)]) c.sends

/-- How a submission has ended. One that has no end is pending, unless its task has crashed. -/
def Caller.reportResult (c : Caller) : Json :=
  match c.submission.phase with
  | .done r => Rest.reportOutcome r
  | .lost => if c.finished.isSome then named "Panic" else .string "pending"
  | _ => .string "pending"

/-- How and when a submission has ended. A crash has no time. -/
def Caller.reportDone (c : Caller) : Json :=
  match c.submission.phase, c.finished with
  | .done _, some t => .object [("t", number t), ("result", c.reportResult)]
  | _, _ => c.reportResult

def reportVerdict : Gateway.Verdict → Json
  | .outcome e => ClientError.reportOr e
  | .ended state => .string state.name
  | .left => .string "shutdown"

def Play.results (p : Play) : List (Nat × Json) :=
  let errands := p.errands.entries.filterMap fun (id, e) => e.verdict?.map fun v => (id, reportVerdict v)
  let requests := p.callers.entries.filterMap fun (id, c) =>
    if c.finished.isSome then some (id, c.reportResult) else none
  (errands ++ requests).mergeSort fun a b => a.1 ≤ b.1

/-- What has happened at the transport and at the handler since they were last cleared, and the
state of the session. -/
def Play.reportFields (p : Play) (now : Nat) : List (String × Json) :=
  let s := p.client.session
  [("wire", each Wire.report p.server.wire), ("app", each (fun (d, _) => d.report) p.handler.seen),
    ("state", .string s.state.name), ("fatal_reason", .ofOption .string s.machine.fatalReason),
    ("has_latency", .bool s.machine.heartbeat.latency.isSome),
    ("gate_open", .bool (p.isGateOpen now))]

def Play.reportClient (p : Play) : List (String × Json) :=
  [("cache", .object p.client.caches.reportFields), ("queue_closed", .bool p.client.queue.isClosed)]

def Play.clear (p : Play) : Play :=
  { p with server := { p.server with wire := [] }, handler := { p.handler with seen := [] } }

end Rehearsal

end Parley
