import Parley.Json.Printer

/-! What a session hands to the application. -/
namespace Parley.Gateway

structure Event where
  kind : String
  sequence : Option UInt64
  data : Json
deriving DecidableEq, Inhabited

/-- Type and id of a creation event, by which a second delivery of it is known. -/
def Event.dedupeKey? (e : Event) : Option String :=
  if e.kind.endsWith "_CREATE" then
    match e.data.field? "id" with
    | some (.string id) => some (e.kind ++ ":" ++ id)
    | some (.number n) => some (e.kind ++ ":" ++ String.ofList (Json.renderNumber n))
    | _ => none
  else none

inductive NextStep where
  | resume
  | reidentify
  | fatal
  | shutdown
deriving DecidableEq, Inhabited

def NextStep.name : NextStep → String
  | resume => "Resume"
  | reidentify => "Reidentify"
  | fatal => "Fatal"
  | shutdown => "Shutdown"

/-- How a connection ended; resets and local errors have no code. -/
structure CloseInfo where
  code : Option UInt16
  reason : String
deriving DecidableEq

def CloseInfo.toText (c : CloseInfo) : String :=
  match c.code with
  | some code => c.reason ++ " (" ++ toString code.toNat ++ ")"
  | none => c.reason

structure CloseCause where
  code : Option UInt16
  reason : String
  next : NextStep
deriving DecidableEq

def CloseCause.toText (c : CloseCause) : String :=
  CloseInfo.toText ⟨c.code, c.reason⟩ ++ ", next: " ++ c.next.name

inductive Delivery where
  | event (e : Event)
  | connected (resumed : Bool)
  | closed (cause : CloseCause)
deriving DecidableEq

end Parley.Gateway
