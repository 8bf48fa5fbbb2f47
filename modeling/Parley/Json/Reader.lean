import Parley.Json.Literal
import Parley.Json.Tree

/-! Reading JSON text from bytes. -/
namespace Parley.Json

def quoteMark : UInt8 := 34
def backslash : UInt8 := 92

def isBlankByte (b : UInt8) : Bool := b == 32 || b == 9 || b == 10 || b == 13

def skipBlank (bytes : List UInt8) : List UInt8 := bytes.dropWhile isBlankByte

def isDigitByte (b : UInt8) : Bool := 48 ≤ b && b ≤ 57

def digitOf (b : UInt8) : Nat := b.toNat - 48

def hexValue? (b : UInt8) : Option Nat :=
  if 48 ≤ b && b ≤ 57 then some (b.toNat - 48)
  else if 97 ≤ b && b ≤ 102 then some (b.toNat - 87)
  else if 65 ≤ b && b ≤ 70 then some (b.toNat - 55)
  else none

def hexUnit? (a b c d : UInt8) : Option Nat := do
  some ((← hexValue? a) * 4096 + (← hexValue? b) * 256 + (← hexValue? c) * 16 + (← hexValue? d))

def shortEscape? (b : UInt8) : Option UInt8 :=
  if b = 34 ∨ b = 92 ∨ b = 47 then some b
  else if b = 98 then some 8
  else if b = 102 then some 12
  else if b = 110 then some 10
  else if b = 114 then some 13
  else if b = 116 then some 9
  else none

inductive Piece where
  | byte (b : UInt8)
  | unit (u : Nat)
deriving DecidableEq

/-- Pieces up to the closing quote, and what follows it. -/
def pieces? : List UInt8 → Option (List Piece × List UInt8)
  | [] => none
  | 92 :: 117 :: a :: b :: c :: d :: rest => do
    let u ← hexUnit? a b c d
    let (ps, rest) ← pieces? rest
    some (.unit u :: ps, rest)
  | 92 :: e :: rest => do
    let b ← shortEscape? e
    let (ps, rest) ← pieces? rest
    some (.byte b :: ps, rest)
  | b :: rest =>
    if b = quoteMark then some ([], rest)
    else if b < 32 ∨ b = backslash then none
    else do
      let (ps, rest) ← pieces? rest
      some (.byte b :: ps, rest)

def charBytes (n : Nat) : List UInt8 := String.utf8EncodeChar (Char.ofNat n)

/-- UTF-8 bytes of the pieces; none when a surrogate has no partner. -/
def join? : List Piece → Option (List UInt8)
  | [] => some []
  | .byte b :: ps => (join? ps).map (b :: ·)
  | .unit u :: ps =>
    if u < 0xD800 ∨ 0xE000 ≤ u then (join? ps).map (charBytes u ++ ·)
    else
      match ps with
      | .unit v :: ps =>
        if u < 0xDC00 ∧ 0xDC00 ≤ v ∧ v < 0xE000 then
          (join? ps).map (charBytes (0x10000 + (u - 0xD800) * 1024 + (v - 0xDC00)) ++ ·)
        else none
      | _ => none

def text? (ps : List Piece) : Option String := do
  let bytes ← join? ps
  String.fromUTF8? bytes.toByteArray

def keyword? : List UInt8 → List UInt8 → Option (List UInt8)
  | [], rest => some rest
  | k :: ks, b :: rest => if k = b then keyword? ks rest else none
  | _ :: _, [] => none

def digits? (bytes : List UInt8) : Option (List Nat × List UInt8) :=
  let taken := bytes.takeWhile isDigitByte
  if taken.isEmpty then none else some (taken.map digitOf, bytes.dropWhile isDigitByte)

/-- A number literal without its sign: no leading zero before another digit, and digits on both
sides of a point and in an exponent. -/
def literal? (negative : Bool) (bytes : List UInt8) : Option (Literal × List UInt8) := do
  let (whole, rest) ← digits? bytes
  if whole.head? = some 0 && whole.length > 1 then none
  let (fraction, rest) ← match rest with
    | 46 :: rest => digits? rest
    | rest => some ([], rest)
  match rest with
  | e :: rest' =>
    if e = 101 ∨ e = 69 then
      let (down, rest') := match rest' with
        | 43 :: r => (false, r)
        | 45 :: r => (true, r)
        | r => (false, r)
      let (digits, rest') ← digits? rest'
      some (⟨negative, whole, fraction, some (down, digits)⟩, rest')
    else some (⟨negative, whole, fraction, none⟩, rest)
  | [] => some (⟨negative, whole, fraction, none⟩, rest)

def readLiteral? (negative : Bool) (bytes : List UInt8) : Option (Tree × List UInt8) := do
  let (l, rest) ← literal? negative bytes
  some (.number l.number?, rest)

mutual

/-- A value at the front of the input. Each call and each item spends one unit of `fuel`. -/
def readTree? : Nat → List UInt8 → Option (Tree × List UInt8)
  | 0, _ => none
  | fuel + 1, bytes =>
    match skipBlank bytes with
    | 110 :: rest => (keyword? [117, 108, 108] rest).map (.null, ·)
    | 116 :: rest => (keyword? [114, 117, 101] rest).map (.bool true, ·)
    | 102 :: rest => (keyword? [97, 108, 115, 101] rest).map (.bool false, ·)
    | 45 :: rest => readLiteral? true rest
    | 34 :: rest => do
      let (ps, rest) ← pieces? rest
      some (.string (text? ps), rest)
    | 91 :: rest =>
      match skipBlank rest with
      | 93 :: rest => some (.array [], rest)
      | rest => do
        let (items, rest) ← readItems? fuel rest
        some (.array items, rest)
    | 123 :: rest =>
      match skipBlank rest with
      | 125 :: rest => some (.object [], rest)
      | rest => do
        let (fields, rest) ← readFields? fuel rest
        some (.object fields, rest)
    | rest => readLiteral? false rest

def readItems? : Nat → List UInt8 → Option (List Tree × List UInt8)
  | 0, _ => none
  | fuel + 1, bytes => do
    let (t, rest) ← readTree? fuel bytes
    match skipBlank rest with
    | 93 :: rest => some ([t], rest)
    | 44 :: rest => do
      let (ts, rest) ← readItems? fuel rest
      some (t :: ts, rest)
    | _ => none

def readFields? : Nat → List UInt8 → Option (List (Option String × Tree) × List UInt8)
  | 0, _ => none
  | fuel + 1, bytes => do
    let (ps, rest) ← match skipBlank bytes with
      | 34 :: rest => pieces? rest
      | _ => none
    match skipBlank rest with
    | 58 :: rest => do
      let (t, rest) ← readTree? fuel rest
      match skipBlank rest with
      | 125 :: rest => some ([(text? ps, t)], rest)
      | 44 :: rest => do
        let (ts, rest) ← readFields? fuel rest
        some ((text? ps, t) :: ts, rest)
      | _ => none
    | _ => none

end

/-- The tree of a text that is one value with nothing but blanks around it. -/
def Tree.read? (bytes : List UInt8) : Option Tree := do
  let (t, rest) ← readTree? (2 * bytes.length + 2) bytes
  if (skipBlank rest).isEmpty then some t else none

def read? (bytes : List UInt8) : Option Json := do
  let t ← Tree.read? bytes
  t.value? nestingLimit

def readText? (s : String) : Option Json := read? s.toUTF8.toList

end Parley.Json
