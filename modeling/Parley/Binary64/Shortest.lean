import Parley.Binary64.Basic

/-! The decimal text of a double with the fewest digits that reads back as that double. -/
namespace Parley.Binary64

/-- Ends of the interval of reals that round to a nonzero `x`, and `x` itself between them, over
one common denominator, the last component. -/
def interval (x : Binary64) : Nat × Nat × Nat × Nat :=
  let below := if x.mantissa = Nat.pow 2 52 ∧ x.exponent > leastExponent then 1 else 2
  let scale := if x.exponent ≥ 0 then Nat.pow 2 x.exponent.toNat else 1
  let den := if x.exponent ≥ 0 then 4 else 4 * Nat.pow 2 (-x.exponent).toNat
  ((4 * x.mantissa - below) * scale, 4 * x.mantissa * scale, (4 * x.mantissa + 2) * scale, den)

def shiftDecimal (num den : Nat) (k : Int) : Nat × Nat :=
  if k ≥ 0 then (num, den * Nat.pow 10 k.toNat) else (num * Nat.pow 10 (-k).toNat, den)

/-- Raises `k` until `num / den < 10 ^ k`, at most `fuel` times. -/
def raise (num den : Nat) : Nat → Int → Int
  | 0, k => k
  | fuel + 1, k =>
    let (n, d) := shiftDecimal num den k
    if n < d then k else raise num den fuel (k + 1)

/-- The `k` with `10 ^ (k - 1) ≤ num / den < 10 ^ k`. -/
def decimalPoint (num den : Nat) : Int :=
  raise num den 8 ((((num.log2 : Int) - den.log2 - 1) * 1233).fdiv 4096)

/-- The nearest multiple of `10 ^ place` inside the interval of `x`, as a count of such units. -/
def onGrid? (x : Binary64) (place : Int) : Option Nat :=
  let (low, mid, high, den) := x.interval
  let (n, d) := shiftDecimal mid den place
  let (l, _) := shiftDecimal low den place
  let (h, _) := shiftDecimal high den place
  let inside (q : Nat) : Bool :=
    if x.mantissa % 2 = 0 then l ≤ q * d && q * d ≤ h else l < q * d && q * d < h
  let q := n / d
  let near := divNearest n d
  let far := if near = q then q + 1 else q
  if inside near then some near else if inside far then some far else none

/-- First grid, from the coarsest to 17 digits, that has a point in the interval. -/
def search (x : Binary64) (point : Int) : List Nat → Nat × Int
  | [] => (0, 0)
  | n :: ns =>
    match onGrid? x (point - n) with
    | some q => (q, point - n)
    | none => search x point ns

def stripZeros : Nat → Nat → Int → Nat × Int
  | 0, q, e => (q, e)
  | fuel + 1, q, e => if q ≠ 0 ∧ q % 10 = 0 then stripZeros fuel (q / 10) (e + 1) else (q, e)

/-- Fewest digits, as an integer without trailing zeros, and the power of ten they count. -/
def shortest (x : Binary64) : Nat × Int :=
  if x.isZero then (0, 0)
  else
    let (_, mid, _, den) := x.interval
    let point := decimalPoint mid den
    let (q, e) := search x point ((List.range 17).map (· + 1))
    stripZeros 20 q e

/-- Where positional notation ends: it is used for numbers from `10 ^ (smallest - 1)` to below
`10 ^ largest`, other numbers have an exponent. -/
structure NumberFormat where
  smallest : Int
  largest : Int

def wireFormat : NumberFormat := ⟨-4, 16⟩

def render (format : NumberFormat) (x : Binary64) : String :=
  let sign := if x.negative then "-" else ""
  if x.isZero then sign ++ "0.0"
  else
    let (q, e) := x.shortest
    let digits := Nat.toDigits 10 q
    let count := digits.length
    let point : Int := count + e
    let body : List Char :=
      if 0 ≤ e ∧ point ≤ format.largest then digits ++ List.replicate e.toNat '0' ++ ['.', '0']
      else if 0 < point ∧ point ≤ format.largest then
        digits.take point.toNat ++ '.' :: digits.drop point.toNat
      else if format.smallest ≤ point ∧ point ≤ 0 then
        '0' :: '.' :: (List.replicate (-point).toNat '0' ++ digits)
      else
        let exponent := (toString (point - 1)).toList
        match digits with
        | [d] => d :: 'e' :: exponent
        | d :: ds => d :: '.' :: (ds ++ 'e' :: exponent)
        | [] => []
    sign ++ String.ofList body

end Parley.Binary64
