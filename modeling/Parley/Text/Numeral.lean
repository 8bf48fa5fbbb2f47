/-! Unsigned decimal numerals. -/
namespace Parley.Text

def digitsValue (digits : List Char) : Nat :=
  digits.foldl (fun n c => 10 * n + (c.toNat - '0'.toNat)) 0

/-- Reads a numeral below `bound`: at most one plus sign, then one or more ASCII digits. -/
def readNat? (bound : Nat) (s : String) : Option Nat :=
  let digits := match s.toList with
    | '+' :: rest => rest
    | cs => cs
  if digits.isEmpty || !digits.all Char.isDigit then none
  else if digitsValue digits < bound then some (digitsValue digits) else none

def readUInt64? (s : String) : Option UInt64 := (readNat? UInt64.size s).map UInt64.ofNat
def readUInt32? (s : String) : Option UInt32 := (readNat? UInt32.size s).map UInt32.ofNat

def padded (width n : Nat) : String :=
  let digits := Nat.toDigits 10 n
  String.ofList (List.replicate (width - digits.length) '0' ++ digits)

end Parley.Text
