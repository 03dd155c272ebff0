import Mathlib.Algebra.Order.Floor.Ring
import Mathlib.Algebra.Order.Floor.Semiring
import Mathlib.Order.Interval.Set.UnorderedInterval
import Mathlib.Tactic.Linarith
import Mathlib.Tactic.Ring

/-!
# Linear interpolation

Between two values (`lerp`), and in a sequence at any position
(`interpolate`). The sequence may be undefined in places; at position
`n + p`, with `p` below one, only the samples `n` and `n + 1` are read.

A value between two samples lies between them (`lerp_mem_uIcc`), which bounds
whatever is interpolated by what is. `interpolate_add` is for a machine that
keeps the whole and the fractional part of its position apart: it gives the
value at the sum of the two, once both samples are known to be defined.
-/

namespace Interpolation

variable {K : Type} [Field K]

/-- `p` of the way from `a` to `b`. -/
def lerp (a b p : K) : K := a * (1 - p) + b * p

theorem lerp_self (a p : K) : lerp a a p = a := by
  rw [lerp]
  ring

variable [LinearOrder K] [IsStrictOrderedRing K]

theorem lerp_mem_uIcc {a b p : K} (hp : 0 ≤ p) (hp' : p ≤ 1) : lerp a b p ∈ Set.uIcc a b := by
  have hstep : lerp a b p = a + (b - a) * p := by
    rw [lerp]
    ring
  rcases le_total a b with hab | hba
  · rw [Set.uIcc_of_le hab, hstep]
    have hlow : 0 ≤ (b - a) * p := mul_nonneg (sub_nonneg.mpr hab) hp
    have hhigh : (b - a) * p ≤ b - a := mul_le_of_le_one_right (sub_nonneg.mpr hab) hp'
    exact ⟨by linarith, by linarith⟩
  · rw [Set.uIcc_of_ge hba, hstep]
    have hhigh : (a - b) * p ≤ a - b := mul_le_of_le_one_right (sub_nonneg.mpr hba) hp'
    have hlow : 0 ≤ (a - b) * p := mul_nonneg (sub_nonneg.mpr hba) hp
    exact ⟨by linarith, by linarith⟩

variable [FloorRing K]

/-- The sequence at a position between two of its samples. -/
def interpolate (x : ℕ → Option K) (t : K) : Option K :=
  (x ⌊t⌋₊).bind fun a => (x (⌊t⌋₊ + 1)).map fun b => lerp a b (Int.fract t)

theorem interpolate_add {x : ℕ → Option K} {n : ℕ} {a b p : K} (ha : x n = some a)
    (hb : x (n + 1) = some b) (hp : 0 ≤ p) (hp' : p < 1) :
    interpolate x (n + p) = some (lerp a b p) := by
  have hfloor : ⌊(n : K) + p⌋₊ = n := by
    rw [add_comm, Nat.floor_add_natCast hp, Nat.floor_eq_zero.mpr hp', zero_add]
  have hfract : Int.fract ((n : K) + p) = p := by
    rw [Int.fract_natCast_add]
    exact Int.fract_eq_self.mpr ⟨hp, hp'⟩
  rw [interpolate, hfloor, hfract, ha, hb]
  rfl

end Interpolation
