import Parley.Snowflake
import Parley.Table

/-! A bounded cache of recent messages. Entries leave in order of arrival; reading an entry does
not keep it. -/
namespace Parley.Cache

structure Entry (α : Type) where
  timestamp : Timestamp
  value : α
  arrival : Nat
deriving DecidableEq

/-- `order` lists arrivals from the oldest. A removed entry leaves its arrival behind, to be
skipped when it comes up for eviction. -/
structure Messages (α : Type) where
  capacity : Nat
  entries : Table Snowflake (Entry α)
  order : List (Snowflake × Nat)
  nextArrival : Nat
deriving DecidableEq

namespace Messages

variable {α : Type}

def standardCapacity : Nat := 100

def create (capacity : Nat) : Messages α := ⟨capacity, .empty, [], 0⟩

def size (c : Messages α) : Nat := c.entries.size

def contains (c : Messages α) (id : Snowflake) : Bool := c.entries.contains id

def getEntry? (c : Messages α) (id : Snowflake) : Option (Entry α) := c.entries.get? id

def get? (c : Messages α) (id : Snowflake) : Option α := (c.getEntry? id).map Entry.value

def isLive (entries : Table Snowflake (Entry α)) (place : Snowflake × Nat) : Bool :=
  match entries.get? place.1 with
  | some e => e.arrival == place.2
  | none => false

/-- Takes arrivals off the front until at most `capacity` entries are left. Also returns the values
that left. -/
def evict (capacity : Nat) (entries : Table Snowflake (Entry α)) :
    List (Snowflake × Nat) → Table Snowflake (Entry α) × List (Snowflake × Nat) × List α
  | [] => (entries, [], [])
  | place :: order =>
    if entries.size ≤ capacity then (entries, place :: order, [])
    else
      match entries.get? place.1 with
      | some e =>
        if e.arrival = place.2 then
          let (entries, order, gone) := evict capacity (entries.erase place.1) order
          (entries, order, e.value :: gone)
        else evict capacity entries order
      | none => evict capacity entries order

structure Added (α : Type) where
  cache : Messages α
  taken : Bool
  evicted : List α

/-- Takes a message whose id is not cached, at the end of the order. -/
def add (c : Messages α) (id : Snowflake) (timestamp : Timestamp) (value : α) : Added α :=
  if c.capacity = 0 then ⟨c, false, []⟩
  else if c.contains id then ⟨c, false, []⟩
  else
    let (entries, order, gone) :=
      evict c.capacity (c.entries.insert id ⟨timestamp, value, c.nextArrival⟩)
        (c.order ++ [(id, c.nextArrival)])
    ⟨{ c with entries, order, nextArrival := c.nextArrival + 1 }, true, gone⟩

def replace (c : Messages α) (id : Snowflake) (value : α) : Messages α × Option α :=
  match c.getEntry? id with
  | some e => ({ c with entries := c.entries.insert id { e with value } }, some e.value)
  | none => (c, none)

/-- Length of the order beyond which a removal drops the arrivals left behind. The product stops at the
greatest number of 64 bits, and the sum wraps around there, as it does where overflow is not checked
for; with a capacity below 2 ^ 63 - 8 neither happens. -/
def compactionLimit (capacity : Nat) : Nat :=
  (min (2 * capacity) 18446744073709551615 + 16) % 18446744073709551616

def remove (c : Messages α) (id : Snowflake) : Messages α × Option α :=
  let removed := c.get? id
  let entries := c.entries.erase id
  let order :=
    if c.order.length > compactionLimit c.capacity then c.order.filter (isLive entries)
    else c.order
  ({ c with entries, order }, removed)

def newestFirst (entries : List (Snowflake × Entry α)) : List (Snowflake × Entry α) :=
  entries.mergeSort fun a b => b.1 ≤ a.1

/-- At most `limit` entries with ids below `before`, the greatest ids first. -/
def getMany (c : Messages α) (before : Option Snowflake) (limit : Nat) :
    List (Snowflake × Entry α) :=
  let matching := c.entries.entries.filter fun (id, _) =>
    match before with
    | some cursor => id < cursor
    | none => true
  (newestFirst matching).take limit

def all (c : Messages α) : List (Snowflake × Entry α) := newestFirst c.entries.entries

def clear (c : Messages α) : Messages α := { c with entries := .empty, order := [] }

def describe (c : Messages α) : String :=
  "MessageCache \x7b capacity: " ++ toString c.capacity ++ ", len: " ++ toString c.size ++ " \x7d"

end Messages

end Parley.Cache
