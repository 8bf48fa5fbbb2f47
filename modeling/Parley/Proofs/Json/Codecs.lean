import Parley.Proofs.Json.Records
import Parley.Proofs.Json.RoundTrip
import Parley.Text.Numeral

/-! What typed values are written as, and what their decoders make of it. -/
namespace Parley

namespace Text

theorem digitsValue_toDigits (n : Nat) : digitsValue (Nat.toDigits 10 n) = n :=
  Nat.ofDigitChars_ten_toDigits

theorem readNat?_toString {n bound : Nat} (h : n < bound) : readNat? bound (toString n) = some n := by
  have hdigit : ∀ c ∈ Nat.toDigits 10 n, c.isDigit = true := fun c hc =>
    Nat.isDigit_of_mem_toDigits (by decide) (by decide) hc
  have hchars : (toString n).toList = Nat.toDigits 10 n := Nat.toList_repr
  have hvalue := digitsValue_toDigits n
  unfold readNat?
  rw [hchars]
  -- The text begins with a digit, hence with no sign.
  cases hd : Nat.toDigits 10 n with
  | nil => exact absurd hd Nat.toDigits_ne_nil
  | cons c cs =>
    rw [hd] at hdigit hvalue
    have hplus : c ≠ '+' := by
      rintro rfl
      exact absurd (hdigit _ List.mem_cons_self) (by decide)
    have hall : (c :: cs).all Char.isDigit = true := List.all_eq_true.mpr hdigit
    split
    · next heq => exact absurd (List.cons.inj heq).1 hplus
    · simp [hall, hvalue, h]

theorem readUInt64?_toString (n : UInt64) : readUInt64? (toString n.toNat) = some n := by
  rw [readUInt64?, readNat?_toString n.toNat_lt, Option.map_some, UInt64.ofNat_toNat]

end Text

namespace Json

structure Plain (levels : Nat) (j : Json) : Prop where
  integral : j.Integral
  wellFormed : j.WellFormed
  depth_le : j.depth ≤ levels

theorem plain_null (levels : Nat) : Plain levels .null := ⟨trivial, trivial, Nat.zero_le _⟩

theorem plain_string (levels : Nat) (s : String) : Plain levels (.string s) :=
  ⟨trivial, trivial, Nat.zero_le _⟩

theorem plain_bool (levels : Nat) (b : Bool) : Plain levels (.bool b) :=
  ⟨trivial, trivial, Nat.zero_le _⟩

theorem plain_ofNat (levels : Nat) {n : Nat} (h : n < 18446744073709551616) :
    Plain levels (.ofNat n) := by
  refine ⟨trivial, ?_, Nat.zero_le _⟩
  change -9223372036854775808 ≤ (n : Int) ∧ (n : Int) < 18446744073709551616
  omega

theorem Plain.mono {levels more : Nat} {j : Json} (h : Plain levels j) (hl : levels ≤ more) :
    Plain more j := ⟨h.integral, h.wellFormed, Nat.le_trans h.depth_le hl⟩

theorem plain_array {levels : Nat} {items : List Json} (h : ∀ x ∈ items, Plain levels x) :
    Plain (levels + 1) (.array items) := by
  have hall : IntegralItems items ∧ WellFormedItems items ∧ depthItems items ≤ levels := by
    induction items with
    | nil => exact ⟨trivial, trivial, Nat.zero_le _⟩
    | cons x items ih =>
      have hx := h x List.mem_cons_self
      obtain ⟨hi, hw, hd⟩ := ih fun y hy => h y (List.mem_cons_of_mem x hy)
      exact ⟨⟨hx.integral, hi⟩, ⟨hx.wellFormed, hw⟩, Nat.max_le.mpr ⟨hx.depth_le, hd⟩⟩
  exact ⟨hall.1, hall.2.1, Nat.succ_le_succ hall.2.2⟩

theorem plain_object {levels : Nat} {fields : List (String × Json)}
    (hn : (fields.map Prod.fst).Nodup) (h : ∀ f ∈ fields, Plain levels f.2) :
    Plain (levels + 1) (.object fields) := by
  have hall : IntegralFields fields ∧ WellFormedFields fields ∧ depthFields fields ≤ levels := by
    clear hn
    induction fields with
    | nil => exact ⟨trivial, trivial, Nat.zero_le _⟩
    | cons f fields ih =>
      obtain ⟨k, x⟩ := f
      have hx := h (k, x) List.mem_cons_self
      obtain ⟨hi, hw, hd⟩ := ih fun y hy => h y (List.mem_cons_of_mem _ hy)
      exact ⟨⟨hx.integral, hi⟩, ⟨hx.wellFormed, hw⟩, Nat.max_le.mpr ⟨hx.depth_le, hd⟩⟩
  exact ⟨hall.1, ⟨hn, hall.2.1⟩, Nat.succ_le_succ hall.2.2⟩

namespace Decoder

variable {α : Type} {d : Decoder α} {encode : α → Json}

theorem text_string (s : String) : text (.ofJson (.string s)) = some s := rfl

theorem bool_bool (b : Bool) : bool (.ofJson (.bool b)) = some b := rfl

theorem nullable_of_ne_null {j : Json} (h : j ≠ .null) (d : Decoder α) :
    nullable d (.ofJson j) = (d (.ofJson j)).map some := by
  cases j with
  | null => exact absurd rfl h
  | _ => rfl

theorem uint8_ofNat (n : UInt8) : uint8 (.ofJson (.ofNat n.toNat)) = some n := by
  rw [uint8, nat_ofNat n.toNat_lt, Option.map_some, UInt8.ofNat_toNat]

theorem uint32_ofNat (n : UInt32) : uint32 (.ofJson (.ofNat n.toNat)) = some n := by
  rw [uint32, nat_ofNat n.toNat_lt, Option.map_some, UInt32.ofNat_toNat]

theorem list_array {xs : List α} (h : ∀ x ∈ xs, d (.ofJson (encode x)) = some x) :
    list d (.ofJson (.array (xs.map encode))) = some xs := by
  change (Tree.ofItems (xs.map encode)).mapM d = some xs
  induction xs with
  | nil => rfl
  | cons x xs ih =>
    rw [List.map_cons, Tree.ofItems, List.mapM_cons, h x List.mem_cons_self,
      ih fun y hy => h y (List.mem_cons_of_mem x hy)]
    rfl

end Decoder

namespace Record

variable {α : Type} {names : List String} {fields : List (String × Json)} {name : String}

/-- A record with the named members of an object of values. -/
structure Holds (names : List String) (fields : List (String × Json)) (r : Record) : Prop where
  keyed : r.positional = false
  lookup : ∀ name ∈ names, r.members.lookup name = (Json.lookup name fields).map Tree.ofJson

theorem ofFields_eq (fields : List (String × Json)) :
    Tree.ofFields fields =
      (fields.map fun (k, v) => (k, Tree.ofJson v)).map fun (k, t) => (some k, t) := by
  induction fields with
  | nil => rfl
  | cons f fields ih => rw [Tree.ofFields, ih, List.map_cons, List.map_cons]

theorem head?_named (name : String) (fields : List (String × Json)) :
    (named name (fields.map fun (k, v) => (k, Tree.ofJson v))).head? =
      (Json.lookup name fields).map Tree.ofJson := by
  induction fields with
  | nil => rfl
  | cons f fields ih =>
    obtain ⟨k, v⟩ := f
    unfold named at ih ⊢
    by_cases hk : k = name
    · simp [Json.lookup, hk]
    · simpa [Json.lookup, hk] using ih

theorem holds_of_read? {r : Record} (h : read? names (.ofJson (.object fields)) = some r) :
    Holds names fields r := by
  rw [Tree.ofJson, ofFields_eq] at h
  obtain ⟨members, he, -, rfl⟩ := read?_object_eq_some_iff.mp h
  have hinj : Function.Injective fun m : String × Tree => (some m.1, m.2) := by
    rintro ⟨k, t⟩ ⟨l, u⟩ heq
    obtain ⟨hk, ht⟩ := Prod.mk.inj heq
    exact Prod.ext (Option.some.inj hk) ht
  obtain rfl := List.map_injective_iff.mpr hinj he
  exact ⟨rfl, fun name hn => (lookup_filter_names hn).trans (head?_named name fields)⟩

theorem exists_holds (hn : (fields.map Prod.fst).Nodup) (names : List String) :
    ∃ r, read? names (.ofJson (.object fields)) = some r ∧ Holds names fields r := by
  have hkeys : (fields.map fun (k, v) => (k, Tree.ofJson v)).map Prod.fst =
      fields.map Prod.fst := by
    rw [List.map_map]
    rfl
  have hread : read? names (.ofJson (.object fields)) =
      some ⟨false, (fields.map fun (k, v) => (k, Tree.ofJson v)).filter fun (k, _) =>
        names.contains k⟩ := by
    rw [Tree.ofJson, ofFields_eq]
    simp only [read?, keyed?_ofMembers, Option.bind_eq_bind, Option.bind_some]
    exact if_pos ((hkeys ▸ hn).sublist (List.filter_sublist.map Prod.fst))
  exact ⟨_, hread, holds_of_read? hread⟩

namespace Holds

variable {r : Record}

theorem required (h : Holds names fields r) (hn : name ∈ names) (d : Decoder α) :
    r.required name d = (Json.lookup name fields).bind fun j => d (.ofJson j) := by
  rw [Record.required, h.lookup name hn, Option.bind_map]
  rfl

theorem optional (h : Holds names fields r) (hn : name ∈ names) (d : Decoder α) :
    r.optional name d =
      ((Json.lookup name fields).map fun j => d.nullable (.ofJson j)).getD (some none) := by
  rw [Record.optional, h.lookup name hn, h.keyed]
  cases Json.lookup name fields <;> rfl

theorem withDefault (h : Holds names fields r) (hn : name ∈ names) (default : α)
    (d : Decoder α) :
    r.withDefault name default d =
      ((Json.lookup name fields).map fun j => d (.ofJson j)).getD (some default) := by
  rw [Record.withDefault, h.lookup name hn]
  cases Json.lookup name fields <;> rfl

end Holds

end Record

end Json

end Parley
