import Mathlib.Algebra.Order.Field.Power
import Mathlib.Tactic.FieldSimp
import Mathlib.Tactic.Linarith
import Mathlib.Tactic.Positivity
import Mathlib.Tactic.Ring
import Parley.Binary64.Decimal

/-! The rational numbers that doubles stand for. Rounding never leaves more than 53 bits of
mantissa, so from 2 ^ 53 on doubles are whole numbers. -/
namespace Parley.Binary64

theorem divNearest_le {num den k : Nat} (h : num < k * den) : divNearest num den ≤ k := by
  have hq : num / den < k := Nat.div_lt_of_lt_mul (by rwa [Nat.mul_comm])
  unfold divNearest
  dsimp only
  split_ifs <;> omega

theorem le_divNearest {num den k : Nat} (hd : 0 < den) (h : k * den ≤ num) :
    k ≤ divNearest num den := by
  have hq : k ≤ num / den := (Nat.le_div_iff_mul_le hd).mpr h
  unfold divNearest
  dsimp only
  split_ifs <;> omega

theorem divNearest_one (num : Nat) : divNearest num 1 = num := by
  simp [divNearest, Nat.mod_one]

def magnitude (x : Binary64) : ℚ := x.mantissa * 2 ^ x.exponent

def value (x : Binary64) : ℚ := if x.negative then -x.magnitude else x.magnitude

variable {x : Binary64} {num den : Nat} {negative : Bool}

theorem fraction_den_pos (x : Binary64) : 0 < x.fraction.2 := by
  unfold fraction
  split_ifs
  · exact Nat.one_pos
  · exact Nat.pow_pos Nat.two_pos

theorem fraction_eq (x : Binary64) : (x.fraction.1 : ℚ) / x.fraction.2 = x.magnitude := by
  unfold fraction magnitude
  split_ifs with he
  · obtain ⟨k, hk⟩ := Int.eq_ofNat_of_zero_le he
    simp [hk]
  · obtain ⟨k, hk⟩ := Int.eq_ofNat_of_zero_le (show 0 ≤ -x.exponent by omega)
    have hneg : x.exponent = -(k : Int) := by omega
    simp [hneg, div_eq_mul_inv]

theorem magnitude_nonneg (x : Binary64) : 0 ≤ x.magnitude := by
  unfold magnitude
  positivity

theorem magnitude_eq_zero_iff : x.magnitude = 0 ↔ x.isZero = true := by
  simp [magnitude, isZero, zpow_ne_zero]

theorem value_nonneg_iff : 0 ≤ x.value ↔ x.negative = false ∨ x.isZero = true := by
  have hm := x.magnitude_nonneg
  unfold value
  cases x.negative with
  | false => simp [hm]
  | true =>
    rw [if_pos rfl, ← magnitude_eq_zero_iff]
    simp only [reduceCtorEq, false_or]
    constructor
    · intro h
      linarith
    · intro h
      linarith

theorem value_eq_magnitude (h : 0 ≤ x.value) : x.value = x.magnitude := by
  have hm := x.magnitude_nonneg
  unfold value at *
  split_ifs at * with hn
  · linarith
  · rfl

theorem scaled_den_pos (num : Nat) (hd : 0 < den) (e : Int) : 0 < (scaled num den e).2 := by
  unfold scaled
  split_ifs
  · exact Nat.mul_pos hd (Nat.pow_pos Nat.two_pos)
  · exact hd

theorem scaled_eq (num den : Nat) (e : Int) :
    ((scaled num den e).1 : ℚ) / (scaled num den e).2 = num / den / 2 ^ e := by
  unfold scaled
  split_ifs with he
  · obtain ⟨k, hk⟩ := Int.eq_ofNat_of_zero_le he
    simp [hk, div_div]
  · obtain ⟨k, hk⟩ := Int.eq_ofNat_of_zero_le (show 0 ≤ -e by omega)
    have hneg : e = -(k : Int) := by omega
    simp [hneg]
    ring

/-- A quotient by a power of two that is near enough to it is below 2 ^ 54. -/
theorem scaled_lt (hd : 0 < den) {e : Int}
    (he : (num.log2 : Int) - den.log2 - 53 ≤ e) :
    (scaled num den e).1 < 2 ^ 54 * (scaled num den e).2 := by
  have hpos := scaled_den_pos num hd e
  have hnum : (num : ℚ) < 2 ^ ((num.log2 : Int) + 1) := by
    exact_mod_cast Nat.lt_log2_self (n := num)
  have hden : (2 : ℚ) ^ (den.log2 : Int) ≤ den := by
    exact_mod_cast Nat.log2_self_le hd.ne'
  have hquot : (num : ℚ) / den / 2 ^ e < 2 ^ (54 : Int) := by
    have h2 : (0 : ℚ) < 2 ^ (den.log2 : Int) := by positivity
    calc (num : ℚ) / den / 2 ^ e
        < 2 ^ ((num.log2 : Int) + 1) / 2 ^ (den.log2 : Int) / 2 ^ e := by
          have : (num : ℚ) / den < 2 ^ ((num.log2 : Int) + 1) / 2 ^ (den.log2 : Int) :=
            div_lt_div₀ hnum hden (by positivity) h2
          gcongr
      _ = 2 ^ ((num.log2 : Int) + 1 - den.log2 - e) := by
          rw [zpow_sub₀ two_ne_zero, zpow_sub₀ two_ne_zero]
      _ ≤ 2 ^ (54 : Int) := zpow_le_zpow_right₀ one_le_two (by omega)
  rw [← scaled_eq, div_lt_iff₀ (by exact_mod_cast hpos)] at hquot
  exact_mod_cast hquot

/-- An exponent that is one higher halves a quotient that is too great for 53 bits. -/
theorem scaled_normal (hd : 0 < den) {e : Int}
    (h : (scaled num den e).1 < 2 ^ 54 * (scaled num den e).2) :
    let e' := if (scaled num den e).1 / (scaled num den e).2 ≥ 2 ^ 53 then e + 1 else e
    (scaled num den e').1 < 2 ^ 53 * (scaled num den e').2 := by
  have hpos (e : Int) : (0 : ℚ) < (scaled num den e).2 := by
    exact_mod_cast scaled_den_pos num hd e
  dsimp only
  split_ifs with hq
  · have hold : ((scaled num den e).1 : ℚ) / (scaled num den e).2 < 2 ^ 54 := by
      rw [div_lt_iff₀ (hpos e)]
      exact_mod_cast h
    have hnew : ((scaled num den (e + 1)).1 : ℚ) / (scaled num den (e + 1)).2 < 2 ^ 53 := by
      rw [scaled_eq] at hold ⊢
      rw [zpow_add_one₀ two_ne_zero, ← div_div]
      linarith
    rw [div_lt_iff₀ (hpos (e + 1))] at hnew
    exact_mod_cast hnew
  · exact (Nat.div_lt_iff_lt_mul (scaled_den_pos num hd e)).mp (Nat.lt_of_not_le hq)

theorem divNearest_scaled_le (num den : Nat) {e : Int}
    (he : (num.log2 : Int) - den.log2 - 53 ≤ e) :
    let e' := if (scaled num den e).1 / (scaled num den e).2 ≥ 2 ^ 53 then e + 1 else e
    divNearest (scaled num den e').1 (scaled num den e').2 ≤ 2 ^ 53 := by
  rcases Nat.eq_zero_or_pos den with rfl | hd
  · intro e'
    have hzero : (scaled num 0 e').2 = 0 := by
      unfold scaled
      split_ifs
      · exact Nat.zero_mul _
      · rfl
    rw [hzero]
    unfold divNearest
    dsimp only
    split_ifs <;> simp
  · exact divNearest_le (scaled_normal hd (scaled_lt hd he))

/-- Whatever is rounded, its mantissa has no more than 53 bits. -/
theorem mantissa_round (h : round? negative num den = some x) : x.mantissa < 2 ^ 53 := by
  unfold round? at h
  split_ifs at h with hn
  · obtain rfl := Option.some.inj h
    exact Nat.pow_pos Nat.two_pos
  · have hle := divNearest_scaled_le num den
      (Int.le_max_right leastExponent ((num.log2 : Int) - den.log2 - 53))
    simp only [Nat.pow_eq] at h
    generalize max leastExponent ((num.log2 : Int) - den.log2 - 53) = e at h hle
    dsimp only at hle
    generalize (if (scaled num den e).1 / (scaled num den e).2 ≥ 2 ^ 53 then e + 1 else e) = e'
      at h hle
    generalize divNearest _ _ = m at h hle
    split_ifs at h with hm
    · rw [← Option.some.inj h]
      norm_num
    · rw [← Option.some.inj h]
      exact Nat.lt_of_le_of_ne hle hm

theorem mantissa_ofDecimal {digits : Nat} {exponent : Int}
    (h : ofDecimal? negative digits exponent = some x) : x.mantissa < 2 ^ 53 := by
  unfold ofDecimal? at h
  dsimp only at h
  split_ifs at h
  · obtain rfl := Option.some.inj h
    exact Nat.pow_pos Nat.two_pos
  · exact mantissa_round h
  · exact mantissa_round h

theorem mantissa_ofText {s : String} (h : ofText? s = some x) : x.mantissa < 2 ^ 53 := by
  unfold ofText? at h
  dsimp only [Option.bind_eq_bind] at h
  split_ifs at h
  · simp at h
  · obtain ⟨e, -, hd⟩ := Option.bind_eq_some_iff.mp h
    exact mantissa_ofDecimal hd

end Parley.Binary64
