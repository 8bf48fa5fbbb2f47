/-! Lengths of time in whole nanoseconds, bounded by 64 bits of seconds. -/
namespace Parley

structure Duration where
  nanos : Nat
  bounded : nanos < 18446744073709551616000000000
deriving DecidableEq

namespace Duration

def zero : Duration := ⟨0, by decide⟩

/-- One nanosecond short of 2 ^ 64 seconds. -/
def longest : Duration := ⟨18446744073709551615999999999, by decide⟩

instance : Inhabited Duration := ⟨zero⟩

/-- The nearest duration to a count of nanoseconds. -/
def ofNanos (n : Nat) : Duration :=
  if h : n < 18446744073709551616000000000 then ⟨n, h⟩ else longest

def ofNanos? (n : Nat) : Option Duration :=
  if h : n < 18446744073709551616000000000 then some ⟨n, h⟩ else none

def ofMillis (ms : UInt64) : Duration :=
  ⟨ms.toNat * 1000000, by have := ms.toNat_lt; omega⟩

def ofSecs (s : UInt64) : Duration :=
  ⟨s.toNat * 1000000000, by have := s.toNat_lt; omega⟩

instance : LE Duration := ⟨fun a b => a.nanos ≤ b.nanos⟩
instance (a b : Duration) : Decidable (a ≤ b) := inferInstanceAs (Decidable (a.nanos ≤ b.nanos))
instance : LT Duration := ⟨fun a b => a.nanos < b.nanos⟩
instance (a b : Duration) : Decidable (a < b) := inferInstanceAs (Decidable (a.nanos < b.nanos))
instance : Max Duration := ⟨fun a b => if a ≤ b then b else a⟩
instance : Min Duration := ⟨fun a b => if a ≤ b then a else b⟩

/-- Product with a count, held at the longest duration. -/
def saturatingMul (d : Duration) (n : Nat) : Duration :=
  ofNanos (d.nanos * n)

def half (d : Duration) : Duration :=
  ⟨d.nanos / 2, by have := d.bounded; omega⟩

def decimal (whole part places : Nat) : String :=
  let digits := Nat.toDigits 10 part
  let padded := List.replicate (places - digits.length) '0' ++ digits
  let kept := (padded.reverse.dropWhile (· == '0')).reverse
  toString whole ++ if kept.isEmpty then "" else "." ++ String.ofList kept

/-- Text in the largest of s, ms, µs and ns whose whole part is not zero. -/
def describe (d : Duration) : String :=
  let n := d.nanos
  if n ≥ 1000000000 then decimal (n / 1000000000) (n % 1000000000) 9 ++ "s"
  else if n ≥ 1000000 then decimal (n / 1000000) (n % 1000000) 6 ++ "ms"
  else if n ≥ 1000 then decimal (n / 1000) (n % 1000) 3 ++ "µs"
  else decimal n 0 0 ++ "ns"

end Duration

end Parley
