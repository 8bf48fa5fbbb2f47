import Parley.Json.Tree

/-! Typed reading of trees. A record is an object, or the array of its members in order; members
it does not know are not looked at. -/
namespace Parley.Json

abbrev Decoder (α : Type) := Tree → Option α

namespace Decoder

def text : Decoder String
  | .string s => s
  | _ => none

def bool : Decoder Bool
  | .bool b => some b
  | _ => none

/-- An integer from zero to below `bound`. -/
def nat (bound : Nat) : Decoder Nat
  | .number n => do
    let i ← (← n).toNat?
    if i < bound then some i else none
  | _ => none

def uint8 : Decoder UInt8 := fun t => (nat UInt8.size t).map UInt8.ofNat
def uint16 : Decoder UInt16 := fun t => (nat UInt16.size t).map UInt16.ofNat
def uint32 : Decoder UInt32 := fun t => (nat UInt32.size t).map UInt32.ofNat
def uint64 : Decoder UInt64 := fun t => (nat UInt64.size t).map UInt64.ofNat

def double : Decoder Binary64
  | .number n => do (← n).toDouble?
  | _ => none

def nullable {α : Type} (d : Decoder α) : Decoder (Option α)
  | .null => some none
  | t => (d t).map some

def list {α : Type} (d : Decoder α) : Decoder (List α)
  | .array items => items.mapM d
  | _ => none

/-- One of a set of names, alone or as the key of an object whose only value is null. -/
def oneOf {α : Type} (names : List (String × α)) : Decoder α
  | .string s => do names.lookup (← s)
  | .object [(key, .null)] => do names.lookup (← key)
  | _ => none

def value (outer : Nat) : Decoder Json := Tree.value? (nestingLimit - outer)

end Decoder

structure Record where
  /-- Given as an array, where only members with a default may be left out. -/
  positional : Bool
  members : List (String × Tree)

namespace Record

def keyed? (fields : List (Option String × Tree)) : Option (List (String × Tree)) :=
  fields.mapM fun (k, t) => k.map (·, t)

/-- Members named in `names`. Refuses a repeated one and an array with too many items. -/
def read? (names : List String) : Tree → Option Record
  | .object fields => do
    let members := (← keyed? fields).filter fun (k, _) => names.contains k
    if (members.map Prod.fst).Nodup then some ⟨false, members⟩ else none
  | .array items => if items.length ≤ names.length then some ⟨true, names.zip items⟩ else none
  | _ => none

variable {α : Type}

def required (r : Record) (name : String) (d : Decoder α) : Option α :=
  (r.members.lookup name).bind d

def optional (r : Record) (name : String) (d : Decoder α) : Option (Option α) :=
  match r.members.lookup name with
  | some t => d.nullable t
  | none => if r.positional then none else some none

def withDefault (r : Record) (name : String) (default : α) (d : Decoder α) : Option α :=
  match r.members.lookup name with
  | some t => d t
  | none => some default

end Record

end Parley.Json
