import Mathlib.Algebra.Order.Floor.Ring
import Mathlib.Algebra.Order.Field.Power
import Mathlib.Data.Int.Log
import Mathlib.Data.Rat.Floor
import Mathlib.Tactic.Linarith
import Mathlib.Tactic.Positivity

/-!
# Rounding to a double

The result of an operation on doubles is the exact one, rounded to the nearest
multiple of the unit in the last place, a tie to the even one. `fl` is that
rounding on the rationals. Its exponent has the least value that a double's
has, and no greatest: what a double can only give as infinity is out of its
reach.

Rounding keeps the order of the numbers that are not negative (`fl_mono`), and
leaves a difference of two doubles alone that is small beside them
(`fl_sub_of_near`).

Both rest on one observation about exponents. `ulpExp` grows with the number,
and a power of two that is not below the last place is a multiple of the unit
(`zpow_div_ulp`). So rounding cannot leave the binade it starts in
(`fl_le_zpow`, `zpow_le_fl`), and monotonicity is that of `roundEven` within
one binade and a power of two between two of them.

A number is a double when rounding leaves it alone (`IsDouble`), which a
multiple of the unit, or of a coarser one, is (`isDouble_of_multiple`). The
doubles from a power of two on lie on one lattice (`IsDouble.multiple`). The
difference of two of them lies on it too, and is again a double when it is
short enough for its own unit not to be coarser than the lattice's.
-/

namespace Binary64

/-! ## To an integer -/

/-- The nearest integer, of two the even one. -/
def roundEven (x : ℚ) : ℤ :=
  if Int.fract x < 1 / 2 then ⌊x⌋
  else if 1 / 2 < Int.fract x then ⌊x⌋ + 1
  else if Even ⌊x⌋ then ⌊x⌋ else ⌊x⌋ + 1

theorem floor_le_roundEven (x : ℚ) : ⌊x⌋ ≤ roundEven x := by
  unfold roundEven
  split_ifs <;> omega

theorem roundEven_le_floor_add_one (x : ℚ) : roundEven x ≤ ⌊x⌋ + 1 := by
  unfold roundEven
  split_ifs <;> omega

theorem roundEven_intCast (n : ℤ) : roundEven n = n := by
  have hless : Int.fract (n : ℚ) < 1 / 2 := by
    rw [Int.fract_intCast]
    norm_num
  rw [roundEven, if_pos hless, Int.floor_intCast]

theorem roundEven_mono {x y : ℚ} (hxy : x ≤ y) : roundEven x ≤ roundEven y := by
  rcases (Int.floor_le_floor hxy).lt_or_eq with hlt | heq
  · have hx := roundEven_le_floor_add_one x
    have hy := floor_le_roundEven y
    omega
  · have hfract : Int.fract x ≤ Int.fract y := by
      rw [Int.fract, Int.fract, heq]
      linarith
    unfold roundEven
    rw [heq]
    split_ifs <;> first | omega | linarith

theorem roundEven_le {x : ℚ} {n : ℤ} (hx : x ≤ n) : roundEven x ≤ n :=
  (roundEven_mono hx).trans_eq (roundEven_intCast n)

theorem le_roundEven {x : ℚ} {n : ℤ} (hx : n ≤ x) : n ≤ roundEven x :=
  (roundEven_intCast n).symm.trans_le (roundEven_mono hx)

/-! ## To a double -/

/-- The exponent of the unit in the last place. -/
def ulpExp (x : ℚ) : ℤ := max (Int.log 2 |x|) (-1022) - 52

def fl (x : ℚ) : ℚ := roundEven (x / 2 ^ ulpExp x) * 2 ^ ulpExp x

theorem fl_zero : fl 0 = 0 := by
  have hzero : roundEven 0 = 0 := roundEven_intCast 0
  rw [fl, zero_div, hzero, Int.cast_zero, zero_mul]

variable {x y : ℚ}

theorem fl_nonneg (hx : 0 ≤ x) : 0 ≤ fl x := by
  have hround : (0 : ℤ) ≤ roundEven (x / 2 ^ ulpExp x) := le_roundEven (by positivity)
  have hcast : (0 : ℚ) ≤ roundEven (x / 2 ^ ulpExp x) := by exact_mod_cast hround
  rw [fl]
  positivity

/-- A power of two above the last place is one of its multiples. -/
theorem zpow_div_ulp {k e : ℤ} (hke : k ≤ e) :
    (2 : ℚ) ^ e / 2 ^ k = ((2 ^ (e - k).toNat : ℤ) : ℚ) := by
  rw [← zpow_sub₀ (by norm_num), Int.cast_pow, Int.cast_ofNat, ← zpow_natCast,
    Int.toNat_of_nonneg (by omega)]

theorem fl_le_zpow {e : ℤ} (he : ulpExp x ≤ e) (hx : x ≤ 2 ^ e) : fl x ≤ 2 ^ e := by
  have hpos : (0 : ℚ) < 2 ^ ulpExp x := by positivity
  have hdiv : x / 2 ^ ulpExp x ≤ ((2 ^ (e - ulpExp x).toNat : ℤ) : ℚ) := by
    rw [← zpow_div_ulp he]
    exact div_le_div_of_nonneg_right hx hpos.le
  have hround : (roundEven (x / 2 ^ ulpExp x) : ℚ) ≤ 2 ^ e / 2 ^ ulpExp x := by
    rw [zpow_div_ulp he]
    exact_mod_cast roundEven_le hdiv
  exact (le_div_iff₀ hpos).mp hround

theorem zpow_le_fl {e : ℤ} (he : ulpExp x ≤ e) (hx : 2 ^ e ≤ x) : 2 ^ e ≤ fl x := by
  have hpos : (0 : ℚ) < 2 ^ ulpExp x := by positivity
  have hdiv : ((2 ^ (e - ulpExp x).toNat : ℤ) : ℚ) ≤ x / 2 ^ ulpExp x := by
    rw [← zpow_div_ulp he]
    exact div_le_div_of_nonneg_right hx hpos.le
  have hround : (2 : ℚ) ^ e / 2 ^ ulpExp x ≤ roundEven (x / 2 ^ ulpExp x) := by
    rw [zpow_div_ulp he]
    exact_mod_cast le_roundEven hdiv
  exact (div_le_iff₀ hpos).mp hround

theorem fl_mono (hx : 0 ≤ x) (hxy : x ≤ y) : fl x ≤ fl y := by
  rcases hx.eq_or_lt with rfl | hpos
  · rw [fl_zero]
    exact fl_nonneg hxy
  have hlog : Int.log 2 |x| ≤ Int.log 2 |y| := by
    rw [abs_of_pos hpos, abs_of_pos (hpos.trans_le hxy)]
    exact Int.log_mono_right hpos hxy
  have hexp : ulpExp x ≤ ulpExp y := by
    unfold ulpExp
    omega
  rcases hexp.eq_or_lt with heq | hlt
  · -- one binade: both are rounded to multiples of the same unit
    have hround := roundEven_mono
      (div_le_div_of_nonneg_right hxy (zpow_nonneg (zero_le_two (α := ℚ)) (ulpExp y)))
    rw [fl, fl, heq]
    exact mul_le_mul_of_nonneg_right (by exact_mod_cast hround) (by positivity)
  · -- a power of two stands between them, and neither is rounded past it
    unfold ulpExp at hlt
    have hbelow : x ≤ 2 ^ Int.log 2 |y| := by
      have hnext := Int.lt_zpow_succ_log_self (b := 2) one_lt_two x
      rw [abs_of_pos hpos] at hlt
      refine hnext.le.trans (zpow_le_zpow_right₀ one_le_two ?_)
      omega
    have habove : 2 ^ Int.log 2 |y| ≤ y := by
      rw [abs_of_pos (hpos.trans_le hxy)]
      exact Int.zpow_log_le_self (b := 2) one_lt_two (hpos.trans_le hxy)
    calc fl x ≤ 2 ^ Int.log 2 |y| := fl_le_zpow (by unfold ulpExp; omega) hbelow
      _ ≤ fl y := zpow_le_fl (by unfold ulpExp; omega) habove

/-! ## What is a double already -/

/-- A number that rounding leaves alone. -/
def IsDouble (x : ℚ) : Prop := fl x = x

/-- A multiple of the unit in the last place, or of a coarser one. -/
theorem isDouble_of_multiple {n e : ℤ} (hx : x = n * 2 ^ e) (he : ulpExp x ≤ e) :
    IsDouble x := by
  have hdiv : x / 2 ^ ulpExp x = ((n * 2 ^ (e - ulpExp x).toNat : ℤ) : ℚ) := by
    rw [Int.cast_mul, ← zpow_div_ulp he, ← mul_div_assoc, ← hx]
  have hpos : (2 : ℚ) ^ ulpExp x ≠ 0 := by positivity
  rw [IsDouble, fl, hdiv, roundEven_intCast, ← hdiv, div_mul_cancel₀ x hpos]

/-- The doubles from a power of two on lie on one lattice. -/
theorem IsDouble.multiple (hx : IsDouble x) {e : ℤ} (he : e ≤ ulpExp x) :
    ∃ n : ℤ, x = n * 2 ^ e := by
  have hne : (2 : ℚ) ^ e ≠ 0 := by positivity
  refine ⟨roundEven (x / 2 ^ ulpExp x) * 2 ^ (ulpExp x - e).toNat, ?_⟩
  rw [Int.cast_mul, ← zpow_div_ulp he, mul_assoc, div_mul_cancel₀ _ hne]
  exact hx.symm

theorem le_ulpExp {e : ℤ} (hx : 2 ^ e ≤ x) : e - 52 ≤ ulpExp x := by
  have hpos : (0 : ℚ) < x := lt_of_lt_of_le (by positivity) hx
  have hlog : e ≤ Int.log 2 |x| := by
    rw [abs_of_pos hpos]
    exact (Int.zpow_le_iff_le_log one_lt_two hpos).mp hx
  unfold ulpExp
  omega

theorem ulpExp_le {e : ℤ} (he : -1022 ≤ e) (hpos : 0 < x) (hx : x < 2 ^ (e + 1)) :
    ulpExp x ≤ e - 52 := by
  have hlog : Int.log 2 |x| < e + 1 := by
    rw [abs_of_pos hpos]
    exact (Int.lt_zpow_iff_log_lt one_lt_two hpos).mp hx
  unfold ulpExp
  omega

theorem isDouble_natCast {n : Nat} (hn : n < 2 ^ 53) : IsDouble n := by
  rcases n.eq_zero_or_pos with rfl | hpos
  · rw [IsDouble, Nat.cast_zero, fl_zero]
  have hlt : (n : ℚ) < 2 ^ ((52 : ℤ) + 1) := by
    norm_num
    exact_mod_cast hn
  have hulp := ulpExp_le (by norm_num) (Nat.cast_pos.mpr hpos) hlt
  exact isDouble_of_multiple (n := n) (e := 0) (by simp) (by omega)

/-- The difference of two doubles from `2 ^ e` on is exact where it is less
than `2 ^ (e + 1)`: all three are multiples of one unit. -/
theorem fl_sub_of_near {e : ℤ} (he : -1022 ≤ e) (hx : IsDouble x) (hy : IsDouble y)
    (hlow : 2 ^ e ≤ x) (hxy : x ≤ y) (hnear : y - x < 2 ^ (e + 1)) : fl (y - x) = y - x := by
  rcases hxy.eq_or_lt with rfl | hlt
  · rw [sub_self, fl_zero]
  obtain ⟨m, hm⟩ := hx.multiple (le_ulpExp hlow)
  obtain ⟨n, hn⟩ := hy.multiple (le_ulpExp (hlow.trans hxy))
  have hdiff : y - x = ((n - m : ℤ) : ℚ) * 2 ^ (e - 52) := by
    rw [Int.cast_sub, sub_mul, ← hm, ← hn]
  exact isDouble_of_multiple hdiff (ulpExp_le he (sub_pos.mpr hlt) hnear)

end Binary64
