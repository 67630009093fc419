import Mathlib.Data.Int.Log
import Mathlib.Data.Rat.Floor
import Mathlib.Tactic.Linarith

/-!
# Rounding to double precision

The value of the double-precision number that is nearest to a rational, as a parser of decimal texts that
refuses what is out of range returns it. -/

namespace LigamentApps

/-- The integer nearest to a rational, and of two the even one. -/
def roundEven (q : ℚ) : ℤ :=
  if q - ⌊q⌋ < 1 / 2 ∨ q - ⌊q⌋ = 1 / 2 ∧ ⌊q⌋ % 2 = 0 then ⌊q⌋ else ⌊q⌋ + 1

/-- The integer nearest to a rational, and of two the one farther from zero. -/
def roundAway (q : ℚ) : ℤ := if 0 ≤ q then ⌊q + 1 / 2⌋ else ⌈q - 1 / 2⌉

/-- The exponent of the last place of a number: it has 53 places, or fewer where it is tiny. -/
def lastPlace (q : ℚ) : ℤ := max (Int.log 2 |q| - 52) (-1074)

/-- The nearest double-precision number, if it is in range. -/
def binary64 (q : ℚ) : Option ℚ :=
  let r : ℚ := roundEven (q / 2 ^ lastPlace q) * 2 ^ lastPlace q
  if |r| < 2 ^ 1024 then some r else none

/-- The nearest double-precision number of a value in range. -/
def double (q : ℚ) : ℚ := (binary64 q).getD 0

theorem roundAway_intCast (n : ℤ) : roundAway n = n := by
  unfold roundAway
  split
  · exact Int.floor_eq_iff.mpr ⟨by linarith, by linarith⟩
  · exact Int.ceil_eq_iff.mpr ⟨by linarith, by linarith⟩

theorem le_roundAway {n : ℤ} {q : ℚ} (hq : 0 ≤ q) (h : n - 1 / 2 ≤ q) : n ≤ roundAway q := by
  unfold roundAway
  rw [if_pos hq]
  exact Int.le_floor.mpr (by linarith)

theorem roundAway_mono {p q : ℚ} (h : p ≤ q) : roundAway p ≤ roundAway q := by
  unfold roundAway
  split_ifs with hp hq hq
  · exact Int.floor_mono (by linarith)
  · exact absurd (hp.trans h) hq
  · have hneg : ⌈p - 1 / 2⌉ ≤ 0 := Int.ceil_le.mpr (by push_cast; linarith)
    exact hneg.trans (Int.floor_nonneg.mpr (by linarith))
  · exact Int.ceil_mono (by linarith)

theorem roundEven_near (q : ℚ) : |roundEven q - q| ≤ 1 / 2 := by
  have hle := Int.floor_le q
  have hlt := Int.lt_floor_add_one q
  unfold roundEven
  split
  · rename_i h
    have hhalf : q - ⌊q⌋ ≤ 1 / 2 := h.elim le_of_lt fun h => h.1.le
    exact abs_le.mpr ⟨by linarith, by linarith⟩
  · rename_i h
    have hhalf : 1 / 2 ≤ q - ⌊q⌋ := not_lt.mp fun hlt => h (.inl hlt)
    push_cast
    exact abs_le.mpr ⟨by linarith, by linarith⟩

theorem roundEven_nonpos {q : ℚ} (hq : q ≤ 0) : roundEven q ≤ 0 := by
  have hnear := (abs_le.mp (roundEven_near q)).2
  have hlt : (roundEven q : ℚ) < 1 := by linarith
  exact Int.lt_add_one_iff.mp (by exact_mod_cast hlt)

theorem double_nonpos {q : ℚ} (hq : q ≤ 0) : double q ≤ 0 := by
  have hplace : (0 : ℚ) < 2 ^ lastPlace q := zpow_pos (by norm_num) _
  have hround : (roundEven (q / 2 ^ lastPlace q) : ℚ) ≤ 0 := by
    exact_mod_cast roundEven_nonpos (div_nonpos_of_nonpos_of_nonneg hq hplace.le)
  unfold double binary64
  dsimp only
  split
  · exact mul_nonpos_of_nonpos_of_nonneg hround hplace.le
  · exact le_rfl

theorem double_near {q : ℚ} (hq : |q| < 2 ^ 16) : |double q - q| ≤ 1 / 2 ^ 37 := by
  have hplace : lastPlace q ≤ -37 := by
    refine max_le ?_ (by norm_num)
    by_cases hzero : q = 0
    · rw [hzero]
      norm_num [Int.log]
    · have hlog := (Int.lt_zpow_iff_log_lt (b := 2) (x := 16) (by norm_num)
        (abs_pos.mpr hzero)).mp (by exact_mod_cast hq)
      omega
  have hpos : (0 : ℚ) < 2 ^ lastPlace q := zpow_pos (by norm_num) _
  have hunit : (2 : ℚ) ^ lastPlace q ≤ 1 / 2 ^ 37 :=
    calc (2 : ℚ) ^ lastPlace q ≤ 2 ^ (-37 : ℤ) := zpow_le_zpow_right₀ (by norm_num) hplace
      _ = 1 / 2 ^ 37 := by norm_num
  have hnear : |roundEven (q / 2 ^ lastPlace q) * 2 ^ lastPlace q - q| ≤ 1 / 2 ^ 37 := by
    have herror := mul_le_mul_of_nonneg_right (roundEven_near (q / 2 ^ lastPlace q)) hpos.le
    rw [← abs_of_pos hpos, ← abs_mul, abs_of_pos hpos, sub_mul, div_mul_cancel₀ _ hpos.ne'] at herror
    linarith
  unfold double binary64
  have hrange : |(roundEven (q / 2 ^ lastPlace q) : ℚ) * 2 ^ lastPlace q| < 2 ^ 1024 := by
    have hsmall := (abs_sub_abs_le_abs_sub _ q).trans hnear
    calc |(roundEven (q / 2 ^ lastPlace q) : ℚ) * 2 ^ lastPlace q| < 2 ^ 17 := by linarith
      _ ≤ 2 ^ 1024 := by gcongr <;> norm_num
  rw [if_pos hrange]
  exact hnear

theorem roundEven_intCast (n : ℤ) : roundEven n = n := by
  unfold roundEven
  rw [Int.floor_intCast, sub_self, if_pos (.inl (by norm_num))]

theorem binary64_intCast {n : ℤ} (hn : |n| < 2 ^ 53) : binary64 n = some (n : ℚ) := by
  have hplace : lastPlace n ≤ 0 := by
    refine max_le ?_ (by norm_num)
    by_cases hzero : n = 0
    · rw [hzero]
      norm_num [Int.log]
    · have hlog : Int.log 2 |(n : ℚ)| < 53 := by
        have hpos : 0 < |(n : ℚ)| := abs_pos.mpr (by exact_mod_cast hzero)
        refine (Int.lt_zpow_iff_log_lt (by norm_num) hpos).mp ?_
        calc |(n : ℚ)| = ((|n| : ℤ) : ℚ) := by rw [Int.cast_abs]
          _ < ((2 ^ 53 : ℤ) : ℚ) := by exact_mod_cast hn
          _ = ((2 : ℕ) : ℚ) ^ (53 : ℤ) := by norm_num
      omega
  obtain ⟨k, hk⟩ : ∃ k : ℕ, lastPlace n = -k := ⟨(-lastPlace n).toNat, by omega⟩
  have hscaled : (n : ℚ) / 2 ^ lastPlace n = ((n * 2 ^ k : ℤ) : ℚ) := by
    rw [hk, zpow_neg, zpow_natCast, div_inv_eq_mul]
    push_cast
    rfl
  have hback : (roundEven ((n : ℚ) / 2 ^ lastPlace n) : ℚ) * 2 ^ lastPlace n = n := by
    rw [hscaled, roundEven_intCast, ← hscaled]
    exact div_mul_cancel₀ _ (zpow_ne_zero _ (by norm_num))
  have hrange : |(n : ℚ)| < 2 ^ 1024 := by
    have hcast : |(n : ℚ)| < 2 ^ 53 := by exact_mod_cast hn
    calc |(n : ℚ)| < 2 ^ 53 := hcast
      _ ≤ 2 ^ 1024 := by gcongr <;> norm_num
  unfold binary64
  rw [hback, if_pos hrange]

end LigamentApps
