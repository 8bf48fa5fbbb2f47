import Parley.Json.Basic

/-! What the grammar of JSON makes of a text, before it is asked to be a value. A part that nobody
asks for may be a number out of range, text that is no Unicode, or nested without limit. -/
namespace Parley.Json

inductive Tree where
  | null
  | bool (value : Bool)
  /-- Absent when the number is past the largest double. -/
  | number (value : Option Number)
  /-- Absent when the text is no sequence of Unicode characters. -/
  | string (text : Option String)
  | array (items : List Tree)
  | object (fields : List (Option String × Tree))
deriving Inhabited

def nestingLimit : Nat := 127

namespace Tree

mutual

/-- The value of a tree that nests at most `levels` containers. The last of repeated keys wins. -/
def value? (levels : Nat) : Tree → Option Json
  | .null => some .null
  | .bool b => some (.bool b)
  | .number n => n.map .number
  | .string s => s.map .string
  | .array items =>
    match levels with
    | 0 => none
    | levels + 1 => (values? levels items).map .array
  | .object fields =>
    match levels with
    | 0 => none
    | levels + 1 => (members? levels [] fields).map .object

def values? (levels : Nat) : List Tree → Option (List Json)
  | [] => some []
  | t :: ts => do
    let v ← value? levels t
    let vs ← values? levels ts
    some (v :: vs)

def members? (levels : Nat) (known : List (String × Json)) :
    List (Option String × Tree) → Option (List (String × Json))
  | [] => some known
  | (key, t) :: ts => do
    let k ← key
    let v ← value? levels t
    members? levels (assign k v known) ts

end

mutual

def ofJson : Json → Tree
  | .null => .null
  | .bool b => .bool b
  | .number n => .number (some n)
  | .string s => .string (some s)
  | .array items => .array (ofItems items)
  | .object fields => .object (ofFields fields)

def ofItems : List Json → List Tree
  | [] => []
  | x :: xs => ofJson x :: ofItems xs

def ofFields : List (String × Json) → List (Option String × Tree)
  | [] => []
  | (k, x) :: xs => (some k, ofJson x) :: ofFields xs

end

end Tree

end Parley.Json
