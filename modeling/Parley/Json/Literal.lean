import Parley.Json.Basic
import Parley.Binary64.Basic

/-! The number a JSON literal stands for. An integer that fits 64 bits is exact. Any other literal
is a double computed from a 64-bit significand and one power of ten, so the result may differ from
the nearest double in the last place. -/
namespace Parley.Json

/-- Parts of a number literal; the digit lists hold values below ten. -/
structure Literal where
  negative : Bool
  whole : List Nat
  fraction : List Nat
  exponent : Option (Bool × List Nat)
deriving DecidableEq

namespace Literal

/-- A significand and the power of ten it counts; `full` once a digit no longer fitted. -/
structure Significand where
  value : Nat
  exponent : Int
  full : Bool

def fits (n : Nat) : Bool := n < 18446744073709551616

/-- Digits before the point: from the first that does not fit, each only raises the exponent. -/
def takeWhole (digits : List Nat) : Significand :=
  digits.foldl (fun s d =>
    if !s.full && fits (s.value * 10 + d) then { s with value := s.value * 10 + d }
    else { s with exponent := s.exponent + 1, full := true }) ⟨0, 0, false⟩

/-- Digits after the point: from the first that does not fit, all are dropped. -/
def takeFraction (s : Significand) (digits : List Nat) : Significand :=
  digits.foldl (fun s d =>
    if !s.full && fits (s.value * 10 + d) then
      { s with value := s.value * 10 + d, exponent := s.exponent - 1 }
    else { s with full := true }) { s with full := false }

def greatestExponent : Nat := 2147483647

def digitsValue (digits : List Nat) : Nat := digits.foldl (fun n d => 10 * n + d) 0

/-- `x` times ten to the power `exponent` by one rounded product or quotient with a power of ten
up to 308, after at most `steps` quotients by 10^308. -/
def scale? : Nat → Binary64 → Int → Option Binary64
  | steps, x, exponent =>
    if exponent.natAbs ≤ 308 then do
      let power ← Binary64.ofNat? (Nat.pow 10 exponent.natAbs)
      if exponent ≥ 0 then x.mul? power else x.div? power
    else if x.isZero then some x
    else if exponent ≥ 0 then none
    else
      match steps with
      | 0 => some (Binary64.zero false)
      | steps + 1 => do
        let power ← Binary64.ofNat? (Nat.pow 10 308)
        let y ← x.div? power
        scale? steps y (exponent + 308)

def signed (negative : Bool) (x : Binary64) : Binary64 :=
  if negative then x.neg else x

def double? (l : Literal) : Option Binary64 := do
  let s := takeFraction (takeWhole l.whole) l.fraction
  let x ← Binary64.ofNat? s.value
  match l.exponent with
  | none => (scale? 3 x s.exponent).map (signed l.negative)
  | some (negative, digits) =>
    let e := digitsValue digits
    if e > greatestExponent then
      if s.value ≠ 0 && !negative then none else some (Binary64.zero l.negative)
    else
      (scale? 3 x (if negative then s.exponent - e else s.exponent + e)).map (signed l.negative)

def number? (l : Literal) : Option Number :=
  let n := digitsValue l.whole
  if l.fraction.isEmpty && l.exponent.isNone then
    if !l.negative && fits n then some (.int n)
    else if l.negative && 0 < n && n ≤ 9223372036854775808 then some (.int (-n))
    else l.double?.map .double
  else l.double?.map .double

end Literal

end Parley.Json
