import Mathlib.Algebra.Group.Nat.Defs
import Mathlib.Order.Bounds.Basic
import Mathlib.Tactic.SplitIfs
import Parley.Snowflake

/-! Identifiers as cursors into time. An identifier made from a millisecond stands below all that are
minted from then on, as long as the millisecond fits the time part. -/
namespace Parley.Snowflake

theorem le_iff {a b : Snowflake} : a ≤ b ↔ a.value.toNat ≤ b.value.toNat := UInt64.le_iff_toNat_le

theorem lt_iff {a b : Snowflake} : a < b ↔ a.value.toNat < b.value.toNat := UInt64.lt_iff_toNat_lt

/-- The first millisecond past the 42 bits of the time part. -/
def horizon : UInt64 := epoch + 4398046511104

def lastFloor : Snowflake := ofUnixMillis (horizon - 1)

theorem toNat_epoch : epoch.toNat = 1420070400000 := rfl

theorem toNat_horizon : horizon.toNat = 1420070400000 + 2 ^ 42 := rfl

theorem toNat_lastFloor : lastFloor.value.toNat = (2 ^ 42 - 1) * 2 ^ 22 := rfl

/-- The epoch is so early that the time of no identifier overflows. -/
theorem toNat_unixMillis (id : Snowflake) :
    id.unixMillis.toNat = id.value.toNat / 2 ^ 22 + 1420070400000 := by
  have hid := id.value.toNat_lt
  have hpart : (id.value >>> 22).toNat = id.value.toNat / 2 ^ 22 := by
    rw [UInt64.toNat_shiftRight]
    exact Nat.shiftRight_eq_div_pow _ _
  rw [unixMillis, UInt64.toNat_add, hpart, toNat_epoch]
  omega

theorem toNat_ofUnixMillis (ms : UInt64) :
    (ofUnixMillis ms).value.toNat = (ms.toNat - 1420070400000) % 2 ^ 42 * 2 ^ 22 := by
  have hpart : (if ms < epoch then 0 else ms - epoch).toNat = ms.toNat - 1420070400000 := by
    split_ifs with h
    · rw [UInt64.lt_iff_toNat_lt, toNat_epoch] at h
      exact (Nat.sub_eq_zero_of_le (Nat.le_of_lt h)).symm
    · exact UInt64.toNat_sub_of_le _ _ (UInt64.not_lt.mp h)
  rw [ofUnixMillis, UInt64.toNat_shiftLeft, hpart]
  change (ms.toNat - 1420070400000) <<< 22 % 2 ^ 64 = _
  rw [Nat.shiftLeft_eq, show 2 ^ 64 = 2 ^ 42 * 2 ^ 22 by rfl, Nat.mul_mod_mul_right]

theorem unixMillis_lt_horizon (id : Snowflake) : id.unixMillis < horizon := by
  have hid := id.value.toNat_lt
  rw [UInt64.lt_iff_toNat_lt, toNat_unixMillis, toNat_horizon]
  omega

theorem ofUnixMillis_le_iff {ms : UInt64} (h : ms < horizon) (id : Snowflake) :
    ofUnixMillis ms ≤ id ↔ ms ≤ id.unixMillis := by
  rw [UInt64.lt_iff_toNat_lt, toNat_horizon] at h
  rw [le_iff, UInt64.le_iff_toNat_le, toNat_ofUnixMillis, toNat_unixMillis,
    Nat.mod_eq_of_lt (by omega)]
  omega

theorem ofUnixMillis_le_lastFloor (ms : UInt64) : ofUnixMillis ms ≤ lastFloor := by
  rw [le_iff, toNat_ofUnixMillis, toNat_lastFloor]
  omega

theorem ofUnixMillis_mono {a b : UInt64} (hb : b < horizon) (h : a ≤ b) :
    ofUnixMillis a ≤ ofUnixMillis b := by
  rw [UInt64.lt_iff_toNat_lt, toNat_horizon] at hb
  rw [UInt64.le_iff_toNat_le] at h
  rw [le_iff, toNat_ofUnixMillis, toNat_ofUnixMillis, Nat.mod_eq_of_lt (by omega),
    Nat.mod_eq_of_lt (by omega)]
  omega

/-- The floor of a time is the first identifier of that time. -/
theorem isLeast_ofUnixMillis (id : Snowflake) :
    IsLeast {other | other.unixMillis = id.unixMillis} (ofUnixMillis id.unixMillis) := by
  have hfits := unixMillis_lt_horizon id
  have hle := (ofUnixMillis_le_iff hfits id).mpr (UInt64.le_refl _)
  refine ⟨?_, ?_⟩
  · -- No later than the identifier, which lies above it, and no earlier than what it is made from.
    have hge := (ofUnixMillis_le_iff hfits (ofUnixMillis id.unixMillis)).mp (UInt64.le_refl _)
    rw [UInt64.le_iff_toNat_le] at hge
    rw [le_iff] at hle
    refine UInt64.toNat_inj.mp (Nat.le_antisymm ?_ hge)
    rw [toNat_unixMillis, toNat_unixMillis id]
    exact Nat.add_le_add_right (Nat.div_le_div_right hle) _
  · intro other ho
    exact (ofUnixMillis_le_iff hfits other).mpr (UInt64.le_of_eq (Eq.symm ho))

/-- The identifier made from a millisecond is the cursor to that time exactly if the millisecond lies
before the horizon: from there on it starts again at zero, so that identifiers above it are all of an
earlier time, and it falls behind the cursors of earlier milliseconds. -/
theorem time_cursor_exact_iff (ms : UInt64) (id : Snowflake) :
    ((ofUnixMillis ms ≤ id ↔ ms ≤ id.unixMillis) ↔ ms < horizon ∨ id < ofUnixMillis ms) ∧
    ((∀ a ≤ ms, ofUnixMillis a ≤ ofUnixMillis ms) ↔
      ms < horizon ∨ ofUnixMillis ms = lastFloor) ∧
    IsLeast {other | other.unixMillis = id.unixMillis} (ofUnixMillis id.unixMillis) := by
  refine ⟨?_, ?_, isLeast_ofUnixMillis id⟩
  · by_cases h : ms < horizon
    · simp [h, ofUnixMillis_le_iff h]
    · -- No identifier is of such a time.
      have hlate : ¬ ms ≤ id.unixMillis := fun hm =>
        h (UInt64.lt_of_le_of_lt hm (unixMillis_lt_horizon id))
      have hlt : ¬ ofUnixMillis ms ≤ id ↔ id < ofUnixMillis ms := by
        rw [le_iff, lt_iff, Nat.not_le]
      simp [h, hlate, hlt]
  · by_cases h : ms < horizon
    · simpa [h] using fun a ha => ofUnixMillis_mono h ha
    · have hlast : horizon - 1 ≤ ms :=
        UInt64.le_trans (by decide) (UInt64.not_lt.mp h)
      simp only [h, false_or]
      constructor
      · intro hall
        have hge := hall _ hlast
        have hle := ofUnixMillis_le_lastFloor ms
        rw [le_iff] at hge hle
        exact congrArg Snowflake.mk (UInt64.toNat_inj.mp (Nat.le_antisymm hle hge))
      · intro hb a _
        rw [hb]
        exact ofUnixMillis_le_lastFloor a

/-- At the horizon the least identifier of all is the cursor. -/
theorem horizon_starts_again :
    ofUnixMillis 5818116911104 ≤ ⟨0⟩ ∧ ¬ (5818116911104 ≤ unixMillis ⟨0⟩) ∧
      ¬ (ofUnixMillis 5818116911103 ≤ ofUnixMillis 5818116911104) := by
  decide

end Parley.Snowflake
