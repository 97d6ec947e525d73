import Mathlib.Data.Int.Log
import CloudAlert.Text.Numerals

/-!
# Doubles

The prices of the model are the rational numbers that the texts denote, the code has the
nearest `double`. Where the difference decides, `toDouble` is that double; a tie goes to
the even significand. It has no largest exponent: where the code gets an infinity, it is
beyond every double.
-/

namespace CloudAlert

/-- The exponent of the last place of the nearest double. -/
def lastPlace (x : ℚ) : ℤ := max (Int.log 2 |x| - 52) (-1074)

/-- The nearest double. -/
def toDouble (x : ℚ) : ℚ :=
  let n : ℚ := roundHalfEven (|x| / 2 ^ lastPlace x) * 2 ^ lastPlace x
  if x < 0 then -n else n

theorem le_roundHalfEven {q : ℚ} {n : ℕ} (hq : 0 ≤ q) (h : (n : ℚ) - 1 / 2 < q) :
    n ≤ roundHalfEven q := by
  have hnear := (abs_le.mp (abs_roundHalfEven_sub hq)).1
  have hlt : (n : ℚ) < roundHalfEven q + 1 := by linarith
  exact Nat.lt_succ_iff.mp (by exact_mod_cast hlt)

theorem two_zpow_pos (e : ℤ) : (0 : ℚ) < 2 ^ e := zpow_pos two_pos e

theorem pos_of_toDouble {x : ℚ} (h : 0 < toDouble x) : 0 < x := by
  by_contra hx
  rcases (not_lt.mp hx).lt_or_eq with hneg | rfl
  · have hn : (0 : ℚ) ≤ roundHalfEven (|x| / 2 ^ lastPlace x) * 2 ^ lastPlace x :=
      mul_nonneg (Nat.cast_nonneg _) (two_zpow_pos _).le
    rw [toDouble, if_pos hneg] at h
    linarith
  · simp [toDouble, roundHalfEven] at h

/-- A bound on the significand is one on the number. -/
theorem le_toDouble {x : ℚ} {n : ℕ} (hx : 0 < x)
    (h : ((n : ℚ) - 1 / 2) * 2 ^ lastPlace x < x) : n * 2 ^ lastPlace x ≤ toDouble x := by
  have hplace := two_zpow_pos (lastPlace x)
  have hsig : n ≤ roundHalfEven (x / 2 ^ lastPlace x) :=
    le_roundHalfEven (div_nonneg hx.le hplace.le) ((lt_div_iff₀ hplace).mpr h)
  rw [toDouble, if_neg (not_lt.mpr hx.le), abs_of_pos hx]
  exact mul_le_mul_of_nonneg_right (Nat.cast_le.mpr hsig) hplace.le

/-- The bound of the accepted prices is rounded upwards. -/
theorem toDouble_of_large {x : ℚ} (h : 10 ^ 100 ≤ x) : 10 ^ 100 ≤ toDouble x := by
  have hpos : 0 < x := lt_of_lt_of_le (by norm_num) h
  have hpower : ∀ e : ℕ, ((2 ^ e : ℕ) : ℚ) = 2 ^ (e : ℤ) := fun e => by
    rw [Nat.cast_pow, zpow_natCast, Nat.cast_ofNat]
  have hbound : ((10 ^ 100 : ℕ) : ℚ) = 10 ^ 100 := by norm_num
  have hlog : ((332 : ℕ) : ℤ) ≤ Int.log 2 x := by
    refine (Int.zpow_le_iff_le_log one_lt_two hpos).mp (le_trans ?_ h)
    rw [Nat.cast_ofNat, ← hpower, ← hbound]
    exact Nat.cast_le.mpr (by decide +kernel)
  have hplace : lastPlace x = Int.log 2 x - 52 := by
    rw [lastPlace, abs_of_pos hpos]
    omega
  rcases hlog.eq_or_lt with heq | hlt
  · -- in the binade of the bound, the significand is at least that of the bound
    have hlast : lastPlace x = (280 : ℕ) := by omega
    have hsig := le_toDouble (n := 5147557589468029) hpos
    rw [hlast, ← hpower] at hsig
    refine le_trans ?_ (hsig (lt_of_lt_of_le ?_ h))
    · rw [← hbound, ← Nat.cast_mul]
      exact Nat.cast_le.mpr (by decide +kernel)
    · have hhalf : (5147557589468029 - 1 / 2) * ((2 ^ 280 : ℕ) : ℚ) =
          ((10295115178936057 * 2 ^ 279 : ℕ) : ℚ) := by
        rw [pow_succ, Nat.cast_mul, Nat.cast_mul]
        generalize ((2 ^ 279 : ℕ) : ℚ) = place
        push_cast
        ring
      rw [← hbound, Nat.cast_ofNat, hhalf]
      exact Nat.cast_lt.mpr (by decide +kernel)
  · -- above it, the power of two below the number is a double
    have hpow : ((2 ^ 52 : ℕ) : ℚ) * 2 ^ lastPlace x = 2 ^ Int.log 2 x := by
      rw [hpower, ← zpow_add₀ two_ne_zero, hplace]
      congr 1
      omega
    have hbelow : (2 : ℚ) ^ Int.log 2 x ≤ x := by
      exact_mod_cast Int.zpow_log_le_self one_lt_two hpos
    refine le_trans ?_ (le_toDouble (n := 2 ^ 52) hpos ?_)
    · rw [hpow, ← hbound]
      refine le_trans ?_ (zpow_le_zpow_right₀ one_le_two (Int.add_one_le_of_lt hlt))
      have hnext : ((332 : ℕ) : ℤ) + 1 = (333 : ℕ) := rfl
      rw [hnext, ← hpower]
      exact Nat.cast_le.mpr (by decide +kernel)
    · refine lt_of_lt_of_le ?_ (hpow.trans_le hbelow)
      exact mul_lt_mul_of_pos_right (sub_lt_self _ one_half_pos) (two_zpow_pos _)

/-- 1e-400 is not above 0 as a double, and a hundred nines are not below 1e100. -/
example : toDouble (1 / 10 ^ 400) = 0 ∧ ¬ toDouble (10 ^ 100 - 1) < 10 ^ 100 := by
  decide +kernel

end CloudAlert
