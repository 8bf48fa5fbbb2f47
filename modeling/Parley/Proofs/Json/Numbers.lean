import Parley.Json.Reader
import Parley.Proofs.Binary64.Magnitudes

/-! The numbers in a text. Whatever number a tree holds that was read from bytes, a literal in the
bytes stands for it, and so no double there has more than 53 bits of mantissa. -/
namespace Parley.Json

inductive Tree.Holds (n : Number) : Tree → Prop
  | here : Holds n (.number (some n))
  | item {items : List Tree} {t : Tree} (ht : t ∈ items) (h : Holds n t) : Holds n (.array items)
  | member {fields : List (Option String × Tree)} {key : Option String} {t : Tree}
      (ht : (key, t) ∈ fields) (h : Holds n t) : Holds n (.object fields)

variable {bytes rest : List UInt8} {t : Tree} {n : Number}

def Written (n : Number) : Prop := ∃ l : Literal, l.number? = some n

theorem written_of_readLiteral {negative : Bool} (h : readLiteral? negative bytes = some (t, rest))
    (hn : t.Holds n) : Written n := by
  simp only [readLiteral?, Option.bind_eq_bind, Option.bind_eq_some_iff, Option.some.injEq,
    Prod.mk.injEq] at h
  obtain ⟨⟨l, _⟩, -, rfl, -⟩ := h
  generalize hl : l.number? = number at hn
  cases hn with
  | here => exact ⟨l, hl⟩

theorem not_holds_of_map_some {o : Option (List UInt8)} {leaf : Tree} (hleaf : ¬ leaf.Holds n)
    (h : o.map (leaf, ·) = some (t, rest)) : ¬ t.Holds n := by
  obtain ⟨_, -, he⟩ := Option.map_eq_some_iff.mp h
  obtain ⟨rfl, -⟩ := Prod.mk.inj he
  exact hleaf

/-- What a reader with this much fuel reads, it reads from literals. -/
structure FromLiterals (fuel : Nat) : Prop where
  tree : ∀ bytes t rest, readTree? fuel bytes = some (t, rest) → ∀ n, t.Holds n → Written n
  items : ∀ bytes items rest, readItems? fuel bytes = some (items, rest) →
    ∀ t ∈ items, ∀ n, t.Holds n → Written n
  fields : ∀ bytes fields rest, readFields? fuel bytes = some (fields, rest) →
    ∀ key t, (key, t) ∈ fields → ∀ n, t.Holds n → Written n

namespace FromLiterals

variable {fuel : Nat}

theorem tree_succ (ih : FromLiterals fuel) (h : readTree? (fuel + 1) bytes = some (t, rest))
    (hn : t.Holds n) : Written n := by
  simp only [readTree?] at h
  split at h
  · exact absurd hn (not_holds_of_map_some (by rintro ⟨⟩) h)
  · exact absurd hn (not_holds_of_map_some (by rintro ⟨⟩) h)
  · exact absurd hn (not_holds_of_map_some (by rintro ⟨⟩) h)
  · exact written_of_readLiteral h hn
  · simp only [Option.bind_eq_bind, Option.bind_eq_some_iff, Option.some.injEq,
      Prod.mk.injEq] at h
    obtain ⟨_, -, rfl, -⟩ := h
    cases hn
  · split at h
    · obtain ⟨rfl, -⟩ := Prod.mk.inj (Option.some.inj h)
      cases hn with
      | item ht _ => simp at ht
    · simp only [Option.bind_eq_bind, Option.bind_eq_some_iff, Option.some.injEq,
        Prod.mk.injEq] at h
      obtain ⟨⟨items, _⟩, hitems, rfl, -⟩ := h
      cases hn with
      | item ht hn => exact ih.items _ _ _ hitems _ ht n hn
  · split at h
    · obtain ⟨rfl, -⟩ := Prod.mk.inj (Option.some.inj h)
      cases hn with
      | member ht _ => simp at ht
    · simp only [Option.bind_eq_bind, Option.bind_eq_some_iff, Option.some.injEq,
        Prod.mk.injEq] at h
      obtain ⟨⟨fields, _⟩, hfields, rfl, -⟩ := h
      cases hn with
      | member ht hn => exact ih.fields _ _ _ hfields _ _ ht n hn
  · exact written_of_readLiteral h hn

theorem items_succ (ih : FromLiterals fuel) {items : List Tree}
    (h : readItems? (fuel + 1) bytes = some (items, rest)) (ht : t ∈ items) (hn : t.Holds n) :
    Written n := by
  simp only [readItems?, Option.bind_eq_bind, Option.bind_eq_some_iff] at h
  obtain ⟨⟨first, after⟩, hfirst, h⟩ := h
  have hwritten := ih.tree _ _ _ hfirst
  dsimp only at h
  split at h
  · obtain ⟨rfl, -⟩ := Prod.mk.inj (Option.some.inj h)
    obtain rfl := List.mem_singleton.mp ht
    exact hwritten n hn
  · simp only [Option.bind_eq_some_iff, Option.some.injEq, Prod.mk.injEq] at h
    obtain ⟨⟨others, _⟩, hothers, rfl, -⟩ := h
    rcases List.mem_cons.mp ht with rfl | ht
    · exact hwritten n hn
    · exact ih.items _ _ _ hothers t ht n hn
  · simp at h

theorem fields_succ (ih : FromLiterals fuel) {fields : List (Option String × Tree)}
    {key : Option String} (h : readFields? (fuel + 1) bytes = some (fields, rest))
    (ht : (key, t) ∈ fields) (hn : t.Holds n) : Written n := by
  simp only [readFields?, Option.bind_eq_bind] at h
  split at h
  · obtain ⟨⟨ps, after⟩, -, h⟩ := Option.bind_eq_some_iff.mp h
    dsimp only at h
    split at h
    · obtain ⟨⟨first, after⟩, hfirst, h⟩ := Option.bind_eq_some_iff.mp h
      have hwritten := ih.tree _ _ _ hfirst
      dsimp only at h
      split at h
      · obtain ⟨rfl, -⟩ := Prod.mk.inj (Option.some.inj h)
        obtain ⟨-, rfl⟩ := Prod.mk.inj (List.mem_singleton.mp ht)
        exact hwritten n hn
      · simp only [Option.bind_eq_some_iff, Option.some.injEq, Prod.mk.injEq] at h
        obtain ⟨⟨others, _⟩, hothers, rfl, -⟩ := h
        rcases List.mem_cons.mp ht with he | ht
        · obtain ⟨-, rfl⟩ := Prod.mk.inj he
          exact hwritten n hn
        · exact ih.fields _ _ _ hothers key t ht n hn
      · simp at h
    · simp at h
  · simp at h

end FromLiterals

theorem fromLiterals (fuel : Nat) : FromLiterals fuel := by
  induction fuel with
  | zero =>
    refine ⟨?_, ?_, ?_⟩ <;> intro bytes x rest h
    · simp [readTree?] at h
    · simp [readItems?] at h
    · simp [readFields?] at h
  | succ fuel ih =>
    exact ⟨fun _ _ _ h _ hn => ih.tree_succ h hn, fun _ _ _ h _ ht _ hn => ih.items_succ h ht hn,
      fun _ _ _ h _ _ ht _ hn => ih.fields_succ h ht hn⟩

theorem written_of_read (h : Tree.read? bytes = some t) (hn : t.Holds n) : Written n := by
  simp only [Tree.read?, Option.bind_eq_bind, Option.bind_eq_some_iff] at h
  obtain ⟨⟨t', rest⟩, ht, h⟩ := h
  dsimp only at h
  split_ifs at h
  obtain rfl := Option.some.inj h
  exact (fromLiterals _).tree _ _ _ ht n hn

namespace Literal

open Binary64

variable {x y : Binary64}

theorem mantissa_zero (negative : Bool) : (zero negative).mantissa < 2 ^ 53 :=
  Nat.pow_pos Nat.two_pos

theorem mantissa_scale {steps : Nat} {exponent : Int} (hx : x.mantissa < 2 ^ 53)
    (h : scale? steps x exponent = some y) : y.mantissa < 2 ^ 53 := by
  induction steps generalizing x exponent with
  | zero =>
    unfold scale? at h
    split_ifs at h
    · obtain ⟨power, -, h⟩ := Option.bind_eq_some_iff.mp h
      exact mantissa_round h
    · obtain ⟨power, -, h⟩ := Option.bind_eq_some_iff.mp h
      exact mantissa_round h
    · exact Option.some.inj h ▸ hx
    · exact Option.some.inj h ▸ mantissa_zero false
  | succ steps ih =>
    unfold scale? at h
    split_ifs at h
    · obtain ⟨power, -, h⟩ := Option.bind_eq_some_iff.mp h
      exact mantissa_round h
    · obtain ⟨power, -, h⟩ := Option.bind_eq_some_iff.mp h
      exact mantissa_round h
    · exact Option.some.inj h ▸ hx
    · obtain ⟨power, -, h⟩ := Option.bind_eq_some_iff.mp h
      obtain ⟨quotient, hq, h⟩ := Option.bind_eq_some_iff.mp h
      exact ih (mantissa_round hq) h

theorem mantissa_signed {negative : Bool} (hx : x.mantissa < 2 ^ 53) :
    (signed negative x).mantissa < 2 ^ 53 := by
  unfold signed
  split_ifs
  · exact hx
  · exact hx

theorem mantissa_double {l : Literal} (h : l.double? = some x) : x.mantissa < 2 ^ 53 := by
  unfold double? at h
  obtain ⟨start, hs, h⟩ := Option.bind_eq_some_iff.mp h
  have hstart := mantissa_round hs
  have hscaled {exponent : Int}
      (h : (scale? 3 start exponent).map (signed l.negative) = some x) : x.mantissa < 2 ^ 53 := by
    obtain ⟨scaled, hscale, rfl⟩ := Option.map_eq_some_iff.mp h
    exact mantissa_signed (mantissa_scale hstart hscale)
  dsimp only at h
  split at h
  · exact hscaled h
  · split_ifs at h
    · exact Option.some.inj h ▸ mantissa_zero l.negative
    · exact hscaled h
    · exact hscaled h

theorem mantissa_number {l : Literal} (h : l.number? = some n) (hx : n.toDouble? = some x) :
    x.mantissa < 2 ^ 53 := by
  have hint {i : Int} (hi : Number.int i = n) : x.mantissa < 2 ^ 53 := by
    subst hi
    exact mantissa_round hx
  have hdouble (h : l.double?.map Number.double = some n) : x.mantissa < 2 ^ 53 := by
    obtain ⟨z, hz, rfl⟩ := Option.map_eq_some_iff.mp h
    obtain rfl := Option.some.inj hx
    exact mantissa_double hz
  unfold number? at h
  dsimp only at h
  split_ifs at h
  · exact hint (Option.some.inj h)
  · exact hint (Option.some.inj h)
  · exact hdouble h
  · exact hdouble h

end Literal

theorem mantissa_of_read {x : Binary64} (h : Tree.read? bytes = some t) (hn : t.Holds n)
    (hx : n.toDouble? = some x) : x.mantissa < 2 ^ 53 := by
  obtain ⟨l, hl⟩ := written_of_read h hn
  exact l.mantissa_number hl hx

end Parley.Json
