import Parley.Binary64.Basic
import Parley.Text.Numeral

/-! Doubles from decimal text with an optional point and exponent. -/
namespace Parley.Binary64

/-- The double nearest to `digits * 10 ^ exponent`; none past the largest. -/
def ofDecimal? (negative : Bool) (digits : Nat) (exponent : Int) : Option Binary64 :=
  let magnitude := (Nat.toDigits 10 digits).length + exponent
  if digits = 0 ∨ magnitude < -400 then some (zero negative)
  else if magnitude > 400 then none
  else if exponent ≥ 0 then round? negative (digits * Nat.pow 10 exponent.toNat) 1
  else round? negative digits (Nat.pow 10 (-exponent).toNat)

/-- Value of an exponent `e`, with its sign; none if a digit is missing or something follows. -/
def exponent? : List Char → Option Int
  | [] => some 0
  | c :: cs =>
    if c = 'e' ∨ c = 'E' then
      let (negative, digits) := match cs with
        | '+' :: ds => (false, ds)
        | '-' :: ds => (true, ds)
        | ds => (false, ds)
      if digits.isEmpty || !digits.all Char.isDigit then none
      else some (if negative then -(Text.digitsValue digits : Int) else Text.digitsValue digits)
    else none

/-- Reads a decimal number: digits on at least one side of an optional point, then an optional
exponent. Words for infinity and not-a-number, and numbers past the largest double, are refused. -/
def ofText? (s : String) : Option Binary64 := do
  let (negative, cs) := match s.toList with
    | '-' :: cs => (true, cs)
    | '+' :: cs => (false, cs)
    | cs => (false, cs)
  let whole := cs.takeWhile Char.isDigit
  let rest := cs.dropWhile Char.isDigit
  let (part, rest) := match rest with
    | '.' :: r => (r.takeWhile Char.isDigit, r.dropWhile Char.isDigit)
    | r => ([], r)
  if whole.isEmpty && part.isEmpty then none
  let e ← exponent? rest
  ofDecimal? negative (Text.digitsValue (whole ++ part)) (e - part.length)

end Parley.Binary64
