/-! A set of the keys accepted last. -/
namespace Parley.Cache

/-- Membership and age are kept apart: `seen` answers whether a key is held, `order` lists the held
keys from the oldest. -/
structure Dedupe (κ : Type) where
  capacity : Nat
  seen : List κ
  order : List κ
deriving DecidableEq

namespace Dedupe

variable {κ : Type} [DecidableEq κ]

def standardCapacity : Nat := 16

/-- Most keys of text for which places can be laid out. Their number is a power of two, with eight for
seven keys or more, and each place takes 25 of the 2 ^ 63 bytes that can be addressed. -/
def keyLimit : Nat := 252201579132747776

/-- A set of this capacity can be laid out; whether there is so much memory is another question. A key
is added before the oldest one goes, so there is room for one more, a sum that wraps around at 64
bits. -/
def isPossible (capacity : Nat) : Bool := (max capacity 1 + 1) % 18446744073709551616 ≤ keyLimit

def create (capacity : Nat) : Dedupe κ := ⟨max capacity 1, [], []⟩

def contains (s : Dedupe κ) (key : κ) : Bool := s.seen.contains key

def size (s : Dedupe κ) : Nat := s.order.length

def evictOldest (s : Dedupe κ) : Dedupe κ :=
  match s.order with
  | [] => s
  | oldest :: rest => { s with seen := s.seen.erase oldest, order := rest }

/-- Accepts a key that is not held, dropping the oldest when there is no place; a key that is held
is refused and keeps its age. -/
def tryAdd (s : Dedupe κ) (key : κ) : Dedupe κ × Bool :=
  if s.contains key then (s, false)
  else
    let added := { s with seen := key :: s.seen, order := s.order ++ [key] }
    (if added.order.length > s.capacity then added.evictOldest else added, true)

def clear (s : Dedupe κ) : Dedupe κ := { s with seen := [], order := [] }

def describe (s : Dedupe κ) : String :=
  "DedupeSet \x7b capacity: " ++ toString s.capacity ++ ", len: " ++ toString s.size ++ " \x7d"

end Dedupe

end Parley.Cache
