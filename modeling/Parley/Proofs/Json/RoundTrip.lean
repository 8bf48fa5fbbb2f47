import Parley.Json.Decode
import Parley.Proofs.Json.Bytes

/-! A printed value is read back: first as a tree, then as the value. A value of `n` bytes is read
with `2 * n` units of fuel: one for the value itself, and for a container as many as for the longest of
its items and one for each of them, which the commas and brackets pay for. -/
namespace Parley.Json

mutual

def Integral : Json → Prop
  | .number (.double _) => False
  | .array items => IntegralItems items
  | .object fields => IntegralFields fields
  | _ => True

def IntegralItems : List Json → Prop
  | [] => True
  | x :: xs => Integral x ∧ IntegralItems xs

def IntegralFields : List (String × Json) → Prop
  | [] => True
  | (_, x) :: xs => Integral x ∧ IntegralFields xs

end

theorem skipBlank_cons {b : UInt8} (h : isBlankByte b = false) (rest : List UInt8) :
    skipBlank (b :: rest) = b :: rest := by
  rw [skipBlank, List.dropWhile_cons, h]
  rfl

section
variable {fuel : Nat} {bytes rest rest' : List UInt8} {t : Tree} {ts : List Tree}
  {ps : List Piece} {fields : List (Option String × Tree)} {b : UInt8}

-- The equations of the reader are worked out once, before the lemmas that all wait for them.
attribute [local simp] readTree? readItems? readFields?

theorem not_blank_of_digit (h : isDigitByte b = true) : isBlankByte b = false := by
  cases hb : isBlankByte b with
  | false => rfl
  | true =>
    simp only [isBlankByte, Bool.or_eq_true, beq_iff_eq] at hb
    obtain ((rfl | rfl) | rfl) | rfl := hb <;> exact absurd h (by decide)

theorem readTree?_digit (h : isDigitByte b = true) :
    readTree? (fuel + 1) (b :: rest) = readLiteral? false (b :: rest) := by
  rw [readTree?, skipBlank_cons (not_blank_of_digit h)]
  split <;> first
    | rfl
    | next heq =>
      obtain ⟨rfl, -⟩ := List.cons.inj heq
      exact absurd h (by decide)

theorem readTree?_null : readTree? (fuel + 1) (110 :: 117 :: 108 :: 108 :: rest) =
    some (.null, rest) := by
  rw [readTree?, skipBlank_cons rfl]
  simp [keyword?]

theorem readTree?_true : readTree? (fuel + 1) (116 :: 114 :: 117 :: 101 :: rest) =
    some (.bool true, rest) := by
  rw [readTree?, skipBlank_cons rfl]
  simp [keyword?]

theorem readTree?_false : readTree? (fuel + 1) (102 :: 97 :: 108 :: 115 :: 101 :: rest) =
    some (.bool false, rest) := by
  rw [readTree?, skipBlank_cons rfl]
  simp [keyword?]

theorem readTree?_minus : readTree? (fuel + 1) (45 :: rest) = readLiteral? true rest := by
  rw [readTree?, skipBlank_cons rfl]
  simp only

theorem readTree?_string (h : pieces? bytes = some (ps, rest)) :
    readTree? (fuel + 1) (34 :: bytes) = some (.string (text? ps), rest) := by
  rw [readTree?, skipBlank_cons rfl]
  simp only [h]
  rfl

theorem readTree?_empty_array :
    readTree? (fuel + 1) (91 :: 93 :: rest) = some (.array [], rest) := by
  rw [readTree?, skipBlank_cons rfl]
  simp only [skipBlank_cons (b := 93) rfl]

theorem readTree?_array (hb : isBlankByte b = false) (hc : b ≠ 93)
    (h : readItems? fuel (b :: bytes) = some (ts, rest)) :
    readTree? (fuel + 1) (91 :: b :: bytes) = some (.array ts, rest) := by
  rw [readTree?, skipBlank_cons rfl]
  simp only [skipBlank_cons hb]
  split
  · next heq => exact absurd (List.cons.inj heq).1 hc
  · rw [h]
    rfl

theorem readTree?_empty_object :
    readTree? (fuel + 1) (123 :: 125 :: rest) = some (.object [], rest) := by
  rw [readTree?, skipBlank_cons rfl]
  simp only [skipBlank_cons (b := 125) rfl]

theorem readTree?_object (h : readFields? fuel (34 :: bytes) = some (fields, rest)) :
    readTree? (fuel + 1) (123 :: 34 :: bytes) = some (.object fields, rest) := by
  rw [readTree?, skipBlank_cons rfl]
  simp only [skipBlank_cons (b := 34) rfl]
  split
  · next heq => exact absurd (List.cons.inj heq).1 (by decide)
  · rw [h]
    rfl

theorem readItems?_last (h : readTree? fuel bytes = some (t, 93 :: rest)) :
    readItems? (fuel + 1) bytes = some ([t], rest) := by
  rw [readItems?, h]
  simp only [Option.bind_eq_bind, Option.bind_some, skipBlank_cons (b := 93) rfl]

theorem readItems?_more (h : readTree? fuel bytes = some (t, 44 :: rest))
    (hs : readItems? fuel rest = some (ts, rest')) :
    readItems? (fuel + 1) bytes = some (t :: ts, rest') := by
  rw [readItems?, h]
  simp only [Option.bind_eq_bind, Option.bind_some, skipBlank_cons (b := 44) rfl, hs]

theorem readFields?_last (hp : pieces? bytes = some (ps, 58 :: rest))
    (h : readTree? fuel rest = some (t, 125 :: rest')) :
    readFields? (fuel + 1) (34 :: bytes) = some ([(text? ps, t)], rest') := by
  rw [readFields?, skipBlank_cons rfl]
  simp only [hp, Option.bind_eq_bind, Option.bind_some, skipBlank_cons (b := 58) rfl, h,
    skipBlank_cons (b := 125) rfl]

theorem readFields?_more {rest'' : List UInt8} (hp : pieces? bytes = some (ps, 58 :: rest))
    (h : readTree? fuel rest = some (t, 44 :: rest'))
    (hs : readFields? fuel rest' = some (fields, rest'')) :
    readFields? (fuel + 1) (34 :: bytes) = some ((text? ps, t) :: fields, rest'') := by
  rw [readFields?, skipBlank_cons rfl]
  simp only [hp, Option.bind_eq_bind, Option.bind_some, skipBlank_cons (b := 58) rfl, h,
    skipBlank_cons (b := 44) rfl, hs]

end

theorem utf8_array (items : List Json) :
    utf8 (renderChars (.array items)) = 91 :: (utf8 (renderItems items) ++ [93]) := by
  rw [renderChars, utf8_cons, utf8_append]
  rfl

theorem utf8_object (fields : List (String × Json)) :
    utf8 (renderChars (.object fields)) = 123 :: (utf8 (renderFields fields) ++ [125]) := by
  rw [renderChars, utf8_cons, utf8_append]
  rfl

theorem utf8_items (x y : Json) (xs : List Json) : utf8 (renderItems (x :: y :: xs)) =
    utf8 (renderChars x) ++ 44 :: utf8 (renderItems (y :: xs)) := by
  rw [renderItems, utf8_append, utf8_cons]
  rfl

theorem utf8_member (k : String) (v : Json) : utf8 (renderFields [(k, v)]) =
    utf8 (quote k) ++ 58 :: utf8 (renderChars v) := by
  rw [renderFields, utf8_append, utf8_cons]
  rfl

theorem utf8_members (k : String) (v : Json) (f : String × Json) (rest : List (String × Json)) :
    utf8 (renderFields ((k, v) :: f :: rest)) =
      utf8 (quote k) ++ 58 :: (utf8 (renderChars v) ++ 44 :: utf8 (renderFields (f :: rest))) := by
  rw [renderFields, utf8_append, utf8_cons, utf8_append, utf8_cons]
  rfl

theorem utf8_number {i : Int} : utf8 (renderNumber (.int i)) =
    if i < 0 then 45 :: utf8 (Nat.toDigits 10 i.natAbs) else utf8 (Nat.toDigits 10 i.natAbs) := by
  rw [renderNumber]
  split
  · rw [utf8_cons]
    rfl
  · rfl

/-- The first byte of a printed value is no blank and closes nothing. -/
theorem exists_head {j : Json} (hj : Integral j) :
    ∃ b more, utf8 (renderChars j) = b :: more ∧ isBlankByte b = false ∧ b ≠ 93 := by
  cases j with
  | null => exact ⟨_, _, rfl, rfl, by decide⟩
  | bool value => cases value <;> exact ⟨_, _, rfl, rfl, by decide⟩
  | number n =>
    cases n with
    | double x => exact hj.elim
    | int i =>
      rw [renderChars, utf8_number]
      split
      · exact ⟨_, _, rfl, rfl, by decide⟩
      · obtain ⟨b, more, hb, hd⟩ := exists_digit i.natAbs
        refine ⟨b, more, hb, not_blank_of_digit hd, ?_⟩
        rintro rfl
        exact absurd hd (by decide)
  | string s => exact ⟨_, _, utf8_quote s, rfl, by decide⟩
  | array items => exact ⟨_, _, utf8_array items, rfl, by decide⟩
  | object fields => exact ⟨_, _, utf8_object fields, rfl, by decide⟩

theorem exists_head_items {x : Json} (hx : Integral x) (xs : List Json) :
    ∃ b more, utf8 (renderItems (x :: xs)) = b :: more ∧ isBlankByte b = false ∧ b ≠ 93 := by
  obtain ⟨b, more, hb, hblank, hc⟩ := exists_head hx
  cases xs with
  | nil => exact ⟨b, more, hb, hblank, hc⟩
  | cons y xs => exact ⟨b, _, by rw [utf8_items, hb, List.cons_append], hblank, hc⟩

theorem exists_head_fields (f : String × Json) (fields : List (String × Json)) :
    ∃ more, utf8 (renderFields (f :: fields)) = quoteMark :: more := by
  obtain ⟨k, v⟩ := f
  cases fields with
  | nil => exact ⟨_, by rw [utf8_member, utf8_quote, List.cons_append]⟩
  | cons f fields => exact ⟨_, by rw [utf8_members, utf8_quote, List.cons_append]⟩

theorem readTree?_int {i : Int} (hi : Number.InRange (.int i)) {rest : List UInt8}
    (hr : Stops rest) (fuel : Nat) :
    readTree? (fuel + 1) (utf8 (renderNumber (.int i)) ++ rest) =
      some (.number (some (.int i)), rest) := by
  obtain ⟨hl, hu⟩ := hi
  rw [utf8_number]
  by_cases hneg : i < 0
  · have hread := readLiteral?_int true i.natAbs hr (by simp) fun _ => by omega
    have hval : -(i.natAbs : Int) = i := by omega
    rw [if_pos rfl, hval] at hread
    rw [if_pos hneg]
    exact readTree?_minus.trans hread
  · have hread := readLiteral?_int false i.natAbs hr (fun _ => by omega) (by simp)
    have hval : (i.natAbs : Int) = i := by omega
    rw [if_neg Bool.false_ne_true, hval] at hread
    obtain ⟨b, more, hb, hd⟩ := exists_digit i.natAbs
    rw [if_neg hneg]
    rw [hb] at hread ⊢
    exact (readTree?_digit hd).trans hread

theorem stops_nil : Stops [] := by simp [Stops]

theorem stops_cons {b : UInt8} (h : b = 44 ∨ b = 93 ∨ b = 125) (rest : List UInt8) :
    Stops (b :: rest) := by
  intro b' hb
  obtain rfl := Option.some.inj hb
  exact h

mutual

theorem readTree?_render : ∀ (j : Json) (fuel : Nat) (rest : List UInt8), Integral j →
    WellFormed j → Stops rest → 2 * (utf8 (renderChars j)).length ≤ fuel + 1 →
    readTree? (fuel + 1) (utf8 (renderChars j) ++ rest) = some (Tree.ofJson j, rest)
  | .null, fuel, rest, _, _, _, _ => readTree?_null
  | .bool true, fuel, rest, _, _, _, _ => readTree?_true
  | .bool false, fuel, rest, _, _, _, _ => readTree?_false
  | .number (.int i), fuel, rest, _, hw, hr, _ => readTree?_int hw hr fuel
  | .string s, fuel, rest, _, _, _, _ => by
    obtain ⟨bytes, ps, hb, hp, ht⟩ := exists_quoted s rest
    rw [renderChars, hb, quoteMark, readTree?_string hp, ht]
    rfl
  | .array [], fuel, rest, _, _, _, _ => readTree?_empty_array
  | .array (x :: xs), fuel, rest, hj, hw, _, hf => by
    -- The bracket is spent on the first item, which begins with neither a blank nor a bracket.
    rw [utf8_array, List.length_cons, List.length_append, List.length_singleton] at hf
    obtain ⟨fuel, rfl⟩ : ∃ f, fuel = f + 1 := ⟨fuel - 1, by omega⟩
    have hitems := readItems?_render (x :: xs) fuel rest (List.cons_ne_nil x xs) hj hw (by omega)
    obtain ⟨b, more, hb, hblank, hc⟩ := exists_head_items hj.1 xs
    rw [utf8_array, List.cons_append, List.append_assoc, List.singleton_append]
    rw [hb] at hitems ⊢
    exact readTree?_array hblank hc hitems
  | .object [], fuel, rest, _, _, _, _ => readTree?_empty_object
  | .object (f :: fs), fuel, rest, hj, hw, _, hf => by
    rw [utf8_object, List.length_cons, List.length_append, List.length_singleton] at hf
    obtain ⟨fuel, rfl⟩ : ∃ f, fuel = f + 1 := ⟨fuel - 1, by omega⟩
    have hfields :=
      readFields?_render (f :: fs) fuel rest (List.cons_ne_nil f fs) hj hw.2 (by omega)
    obtain ⟨more, hb⟩ := exists_head_fields f fs
    rw [utf8_object, List.cons_append, List.append_assoc, List.singleton_append]
    rw [hb] at hfields ⊢
    exact readTree?_object hfields

theorem readItems?_render : ∀ (items : List Json) (fuel : Nat) (rest : List UInt8), items ≠ [] →
    IntegralItems items → WellFormedItems items → 2 * (utf8 (renderItems items)).length ≤ fuel →
    readItems? (fuel + 1) (utf8 (renderItems items) ++ 93 :: rest) =
      some (Tree.ofItems items, rest)
  | [], _, _, hne, _, _, _ => absurd rfl hne
  | [x], fuel, rest, _, hj, hw, hf => by
    obtain ⟨b, more, hb, -⟩ := exists_head hj.1
    rw [renderItems] at hf ⊢
    rw [hb, List.length_cons] at hf
    obtain ⟨fuel, rfl⟩ : ∃ f, fuel = f + 1 := ⟨fuel - 1, by omega⟩
    rw [← List.length_cons, ← hb] at hf
    exact readItems?_last (readTree?_render x fuel (93 :: rest) hj.1 hw.1
      (stops_cons (.inr (.inl rfl)) rest) hf)
  | x :: y :: xs, fuel, rest, _, hj, hw, hf => by
    rw [utf8_items, List.length_append, List.length_cons] at hf
    obtain ⟨fuel, rfl⟩ : ∃ f, fuel = f + 1 := ⟨fuel - 1, by omega⟩
    have hx := readTree?_render x fuel (44 :: (utf8 (renderItems (y :: xs)) ++ 93 :: rest)) hj.1
      hw.1 (stops_cons (.inl rfl) _) (by omega)
    have hxs := readItems?_render (y :: xs) fuel rest (List.cons_ne_nil y xs) hj.2 hw.2 (by omega)
    rw [utf8_items, List.append_assoc, List.cons_append]
    exact readItems?_more hx hxs

theorem readFields?_render : ∀ (fields : List (String × Json)) (fuel : Nat) (rest : List UInt8),
    fields ≠ [] → IntegralFields fields → WellFormedFields fields →
    2 * (utf8 (renderFields fields)).length ≤ fuel →
    readFields? (fuel + 1) (utf8 (renderFields fields) ++ 125 :: rest) =
      some (Tree.ofFields fields, rest)
  | [], _, _, hne, _, _, _ => absurd rfl hne
  | [(k, v)], fuel, rest, _, hj, hw, hf => by
    rw [utf8_member, List.length_append, List.length_cons] at hf
    obtain ⟨fuel, rfl⟩ : ∃ f, fuel = f + 1 := ⟨fuel - 1, by omega⟩
    have hv := readTree?_render v fuel (125 :: rest) hj.1 hw.1 (stops_cons (.inr (.inr rfl)) rest)
      (by omega)
    obtain ⟨bytes, ps, hb, hp, ht⟩ := exists_quoted k (58 :: (utf8 (renderChars v) ++ 125 :: rest))
    rw [utf8_member, List.append_assoc, List.cons_append, hb, quoteMark, readFields?_last hp hv, ht]
    rfl
  | (k, v) :: f :: fs, fuel, rest, _, hj, hw, hf => by
    rw [utf8_members, List.length_append, List.length_cons, List.length_append,
      List.length_cons] at hf
    obtain ⟨fuel, rfl⟩ : ∃ f, fuel = f + 1 := ⟨fuel - 1, by omega⟩
    have hv := readTree?_render v fuel (44 :: (utf8 (renderFields (f :: fs)) ++ 125 :: rest)) hj.1
      hw.1 (stops_cons (.inl rfl) _) (by omega)
    have hfs := readFields?_render (f :: fs) fuel rest (List.cons_ne_nil f fs) hj.2 hw.2 (by omega)
    obtain ⟨bytes, ps, hb, hp, ht⟩ := exists_quoted k
      (58 :: (utf8 (renderChars v) ++ 44 :: (utf8 (renderFields (f :: fs)) ++ 125 :: rest)))
    rw [utf8_members, List.append_assoc, List.cons_append, List.append_assoc, List.cons_append, hb,
      quoteMark, readFields?_more hp hv hfs, ht]
    rfl

end

/-- Nothing is left over when the text of a value is read. -/
theorem Tree.read?_render {j : Json} (hj : Integral j) (hw : WellFormed j) :
    Tree.read? j.render.toUTF8.toList = some (Tree.ofJson j) := by
  have hread :=
    readTree?_render j (2 * (utf8 (renderChars j)).length + 1) [] hj hw stops_nil (by omega)
  rw [List.append_nil] at hread
  rw [Tree.read?, render, toList_toUTF8, hread]
  rfl

theorem assign_of_notMem {k : String} {v : Json} {known : List (String × Json)}
    (h : k ∉ known.map Prod.fst) : assign k v known = known ++ [(k, v)] := by
  induction known with
  | nil => rfl
  | cons e known ih =>
    obtain ⟨l, w⟩ := e
    obtain ⟨hne, hn⟩ := not_or.mp (fun he => h (List.mem_cons.mpr he))
    rw [assign, if_neg fun he => hne he.symm, ih hn]
    rfl

mutual

theorem value?_ofJson : ∀ (j : Json) (levels : Nat), WellFormed j → depth j ≤ levels →
    Tree.value? levels (Tree.ofJson j) = some j
  | .null, levels, _, _ => by rw [Tree.ofJson, Tree.value?]
  | .bool b, levels, _, _ => by rw [Tree.ofJson, Tree.value?]
  | .number n, levels, _, _ => by rw [Tree.ofJson, Tree.value?, Option.map_some]
  | .string s, levels, _, _ => by rw [Tree.ofJson, Tree.value?, Option.map_some]
  | .array items, levels, hw, hd => by
    rw [depth] at hd
    obtain ⟨levels, rfl⟩ : ∃ l, levels = l + 1 := ⟨levels - 1, by omega⟩
    rw [Tree.ofJson, Tree.value?, values?_ofItems items levels hw (by omega), Option.map_some]
  | .object fields, levels, hw, hd => by
    rw [depth] at hd
    obtain ⟨levels, rfl⟩ : ∃ l, levels = l + 1 := ⟨levels - 1, by omega⟩
    rw [Tree.ofJson, Tree.value?, members?_ofFields fields levels [] hw.1 hw.2 (by omega),
      Option.map_some, List.nil_append]

theorem values?_ofItems : ∀ (items : List Json) (levels : Nat), WellFormedItems items →
    depthItems items ≤ levels → Tree.values? levels (Tree.ofItems items) = some items
  | [], levels, _, _ => by rw [Tree.ofItems, Tree.values?]
  | x :: xs, levels, hw, hd => by
    rw [depthItems] at hd
    rw [Tree.ofItems, Tree.values?, value?_ofJson x levels hw.1 (by omega),
      values?_ofItems xs levels hw.2 (by omega)]
    rfl

theorem members?_ofFields : ∀ (fields : List (String × Json)) (levels : Nat)
    (known : List (String × Json)), ((known ++ fields).map Prod.fst).Nodup →
    WellFormedFields fields → depthFields fields ≤ levels →
    Tree.members? levels known (Tree.ofFields fields) = some (known ++ fields)
  | [], levels, known, _, _, _ => by rw [Tree.ofFields, Tree.members?, List.append_nil]
  | (k, x) :: xs, levels, known, hn, hw, hd => by
    rw [depthFields] at hd
    have hk : k ∉ known.map Prod.fst := by
      rw [List.map_append, List.map_cons] at hn
      exact fun hm => (List.nodup_append.mp hn).2.2 k hm k List.mem_cons_self rfl
    have hrest := members?_ofFields xs levels (known ++ [(k, x)]) (by simpa using hn) hw.2
      (by omega)
    rw [Tree.ofFields, Tree.members?, value?_ofJson x levels hw.1 (by omega)]
    simp only [Option.bind_eq_bind, Option.bind_some, assign_of_notMem hk, hrest,
      List.append_assoc, List.singleton_append]

end

/-- A printed value is read back, whatever it is made of, as long as its numbers are integers. -/
theorem readText?_render {j : Json} (hj : Integral j) (hw : WellFormed j)
    (hd : depth j ≤ nestingLimit) : readText? j.render = some j := by
  rw [readText?, Json.read?, Tree.read?_render hj hw]
  exact value?_ofJson j nestingLimit hw hd

namespace Decoder

theorem nat_ofNat {n bound : Nat} (h : n < bound) : nat bound (.ofJson (.ofNat n)) = some n := by
  simp [nat, Json.ofNat, Tree.ofJson, Number.toNat?, h]

theorem uint64_ofNat (n : UInt64) : uint64 (.ofJson (.ofNat n.toNat)) = some n := by
  rw [uint64, nat_ofNat n.toNat_lt, Option.map_some, UInt64.ofNat_toNat]

/-- A free value is read back, but null for none. -/
theorem nullable_value {j : Json} {outer : Nat} (hw : WellFormed j)
    (hd : depth j ≤ nestingLimit - outer) :
    nullable (value outer) (.ofJson j) = some (if j = .null then none else some j) := by
  have hvalue : value outer (.ofJson j) = some j := value?_ofJson j _ hw hd
  by_cases hj : j = .null
  · rw [hj]
    rfl
  · rw [if_neg hj]
    unfold nullable
    split
    · next ht =>
      cases j <;> simp only [Tree.ofJson, reduceCtorEq] at ht
      exact absurd rfl hj
    · rw [hvalue, Option.map_some]

end Decoder

end Parley.Json
