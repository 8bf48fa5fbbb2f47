import Parley.Rehearsal.Schedule
import Parley.Rest.Lane
import Parley.Table

/-! A rehearsal of requests that ask one lane for slots and do nothing with them. -/
namespace Parley.Rehearsal

open Rest (Lane Place Terms Signals)

structure Applicant where
  terms : Terms
  canceledAt : Option Nat
  place : Option Place
  finished : Option Nat
deriving DecidableEq

namespace Applicant

def create (terms : Terms) (canceledAt : Option Nat) : Applicant := ⟨terms, canceledAt, none, none⟩

def isCanceled (a : Applicant) (now : Nat) : Bool := a.canceledAt.any (· ≤ now)

def signals (a : Applicant) (now : Nat) : Signals := ⟨a.isCanceled now, none⟩

/-- The failure with which the request has left, or none for a slot. -/
def result? (a : Applicant) : Option (Option ClientError) :=
  match a.place with
  | some .granted => some none
  | some (.refused e) => some (some e)
  | _ => none

end Applicant

structure Line where
  lane : Lane
  applicants : Table Nat Applicant

namespace Line

def canRun (now : Nat) (l : Line) (id : Nat) : Bool :=
  match l.applicants.get? id with
  | none => false
  | some a =>
    match a.place with
    | none => true
    | some .inLine => l.lane.isHead id || a.isCanceled now || a.terms.deadline ≤ .ofMillis now
    | some (.asleep until_) => a.isCanceled now || until_ ≤ .ofMillis now
    | some _ => false

def place (now : Nat) (l : Line) (id : Nat) (a : Applicant) : Lane × Place → Line
  | (lane, place) =>
    let finished := match place with
      | .granted | .refused _ => some now
      | _ => none
    ⟨lane, l.applicants.insert id { a with place := some place, finished }⟩

def run (now : Nat) (l : Line) (id : Nat) : Line :=
  match l.applicants.get? id with
  | none => l
  | some a =>
    let t := Instant.ofMillis now
    match a.place with
    | none => l.place now id a (l.lane.arrive id a.terms (a.signals now) t)
    | some .inLine =>
      if l.lane.isHead id then l.place now id a (l.lane.ask id a.terms (a.signals now) t)
      else
        let e := if a.isCanceled now then ClientError.canceled else .timeout
        l.place now id a (l.lane.leave id, .refused e)
    | some (.asleep until_) =>
      if until_ ≤ t then l.place now id a (l.lane.ask id a.terms (a.signals now) t)
      else l.place now id a (l.lane.leave id, .refused .canceled)
    | some _ => l

def moments (a : Applicant) : List Nat :=
  match a.place with
  | some .inLine => a.terms.deadline.firesAt :: a.canceledAt.toList
  | some (.asleep until_) => until_.firesAt :: a.canceledAt.toList
  | _ => []

def schedule : Schedule Nat Line where
  tasks l := l.applicants.keys
  canRun := canRun
  run := run
  next? now l := earliest now (l.applicants.values.flatMap moments)

def isOver (l : Line) : Bool := l.applicants.values.all fun a => a.result?.isSome

end Line

end Parley.Rehearsal
