import Parley.Snowflake
import Parley.Table

/-! Records shared by counted handles. A record is registered under an id from the first handle
taken for that id until the last one is given back. -/
namespace Parley.Cache

structure Slot where
  record : Nat
  refs : Nat
deriving DecidableEq

structure Handle where
  id : Snowflake
  record : Nat
deriving DecidableEq, Inhabited

/-- Records are numbered in order of creation; a number is never given twice, so two handles with
one number share one record. -/
structure Users (α : Type) where
  slots : Table Snowflake Slot
  records : Table Nat α
  nextRecord : Nat
deriving DecidableEq

namespace Users

variable {α : Type}

def empty : Users α := ⟨.empty, .empty, 0⟩

instance : Inhabited (Users α) := ⟨empty⟩

def size (u : Users α) : Nat := u.slots.size

def contains (u : Users α) (id : Snowflake) : Bool := u.slots.contains id

def refCount (u : Users α) (id : Snowflake) : Nat :=
  match u.slots.get? id with
  | some slot => slot.refs
  | none => 0

def get? (u : Users α) (id : Snowflake) : Option (Users α × Handle) :=
  (u.slots.get? id).map fun slot =>
    ({ u with slots := u.slots.insert id { slot with refs := slot.refs + 1 } }, ⟨id, slot.record⟩)

structure Acquired (α : Type) where
  users : Users α
  handle : Handle
  /-- The id was not registered, so `make` supplied its record. -/
  created : Bool

/-- Takes a handle for an id, with the record of `make` if the id is not registered. -/
def getOrCreate (u : Users α) (id : Snowflake) (make : Unit → α) : Acquired α :=
  match u.get? id with
  | some (users, handle) => ⟨users, handle, false⟩
  | none =>
    ⟨{ slots := u.slots.insert id ⟨u.nextRecord, 1⟩,
       records := u.records.insert u.nextRecord (make ()),
       nextRecord := u.nextRecord + 1 }, ⟨id, u.nextRecord⟩, true⟩

def clone (u : Users α) (h : Handle) : Users α × Handle :=
  match u.slots.get? h.id with
  | some slot => ({ u with slots := u.slots.insert h.id { slot with refs := slot.refs + 1 } }, h)
  | none => (u, h)

/-- Gives a handle back; true if it was the last one of its id. -/
def release (u : Users α) (h : Handle) : Users α × Bool :=
  match u.slots.get? h.id with
  | some slot =>
    if slot.refs ≤ 1 then ({ u with slots := u.slots.erase h.id }, true)
    else ({ u with slots := u.slots.insert h.id { slot with refs := slot.refs - 1 } }, false)
  | none => (u, false)

def read? (u : Users α) (h : Handle) : Option α := u.records.get? h.record

def write (u : Users α) (h : Handle) (f : α → α) : Users α :=
  { u with records := u.records.modify h.record f }

def update (u : Users α) (id : Snowflake) (f : α → α) : Users α × Bool :=
  match u.slots.get? id with
  | some slot => ({ u with records := u.records.modify slot.record f }, true)
  | none => (u, false)

def describe (u : Users α) : String :=
  "SharedUserRegistry \x7b records: " ++ toString u.size ++ " \x7d"

end Users

end Parley.Cache
