import Parley.Gateway.Dispatch
import Parley.Rehearsal.Schedule
import Parley.Script.Entry

/-! An application's handler that writes down what it is given. An event of the kind SLOW takes the
milliseconds that it names, and one of the kind PANIC makes the handler fail. -/
namespace Parley.Rehearsal

open Gateway (Delivery DispatchQueue)

structure Handler where
  due : Option Nat
  seen : List (Delivery × Nat)
deriving DecidableEq

namespace Handler

def idle : Handler := ⟨none, []⟩

def duration : Delivery → Nat
  | .event e => if e.kind = "SLOW" then Script.Entry.nat e.data "ms" else 0
  | _ => 0

def fails : Delivery → Bool
  | .event e => e.kind == "PANIC"
  | _ => false

def canRun (h : Handler) (q : DispatchQueue) (now : Nat) : Bool :=
  match h.due with
  | some t => t ≤ now
  | none => q.take?.isSome

def begin (now : Nat) (h : Handler) (d : Delivery) : Handler :=
  { h with due := some (now + duration d) }

/-- Ends the call under way, or takes the delivery of the next one, which is then to begin. -/
def run (h : Handler) (q : DispatchQueue) (now : Nat) : Handler × DispatchQueue × Option Delivery :=
  match h.due, q.call with
  | some _, some d =>
    ({ due := none, seen := if fails d then h.seen else h.seen ++ [(d, now)] }, q.finish, none)
  | _, _ =>
    match q.take? with
    | some (d, q) => (h, q, some d)
    | none => (h, q, none)

end Handler

structure Desk where
  queue : DispatchQueue
  handler : Handler
deriving DecidableEq

namespace Desk

def push (d : Desk) (delivery : Delivery) : Desk := { d with queue := d.queue.push delivery }

def schedule : Schedule Unit Desk where
  tasks _ := [()]
  canRun now d _ := d.handler.canRun d.queue now
  run now d _ :=
    let (handler, queue, taken) := d.handler.run d.queue now
    ⟨queue, taken.toList.foldl (Handler.begin now) handler⟩
  next? now d := earliest now d.handler.due.toList

end Desk

end Parley.Rehearsal
