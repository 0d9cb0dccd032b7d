import Mathlib.Algebra.Order.Ring.Int
import Mathlib.Data.Int.Order.Lemmas
import Mathlib.Tactic.Linarith

/-! # Amounts at a rate

An amount is converted at a rate `n / d` of integers, and the quotient is cut towards zero. Nothing
is won on the way there and back. -/

namespace FogoYield.Library

/-- The amount `x` at the rate `n / d`. -/
def scale (x n d : ℤ) : ℤ := (x * n).tdiv d

variable {x y n n' d d' : ℤ}

theorem scale_nonneg (hx : 0 ≤ x) (hn : 0 ≤ n) (hd : 0 ≤ d) : 0 ≤ scale x n d :=
  Int.tdiv_nonneg (mul_nonneg hx hn) hd

theorem scale_mono (hn : 0 ≤ n) (hd : 0 < d) (h : x ≤ y) : scale x n d ≤ scale y n d :=
  Int.tdiv_le_tdiv hd (mul_le_mul_of_nonneg_right h hn)

theorem scale_mono_rate (hx : 0 ≤ x) (hd : 0 < d) (h : n ≤ n') : scale x n d ≤ scale x n' d :=
  Int.tdiv_le_tdiv hd (mul_le_mul_of_nonneg_left h hx)

theorem scale_eq_ediv (hx : 0 ≤ x) (hn : 0 ≤ n) : scale x n d = x * n / d :=
  Int.tdiv_eq_ediv_of_nonneg (mul_nonneg hx hn)

theorem scale_mul_le (hx : 0 ≤ x) (hn : 0 ≤ n) (hd : 0 < d) : scale x n d * d ≤ x * n := by
  rw [scale_eq_ediv hx hn]
  exact Int.ediv_mul_le _ hd.ne'

theorem scale_anti (hx : 0 ≤ x) (hn : 0 ≤ n) (hd : 0 < d) (h : d ≤ d') :
    scale x n d' ≤ scale x n d := by
  rw [scale_eq_ediv hx hn (d := d), Int.le_ediv_iff_mul_le hd]
  have hnonneg := scale_nonneg hx hn (hd.trans_le h).le
  calc
    scale x n d' * d ≤ scale x n d' * d' := mul_le_mul_of_nonneg_left h hnonneg
    _ ≤ x * n := scale_mul_le hx hn (hd.trans_le h)

/-- There and back at the same rate. -/
theorem scale_scale_le (hx : 0 ≤ x) (hn : 0 < n) (hd : 0 < d) : scale (scale x n d) d n ≤ x := by
  rw [scale_eq_ediv (scale_nonneg hx hn.le hd.le) hd.le]
  exact Int.ediv_le_of_le_mul hn (scale_mul_le hx hn.le hd)

/-- A rate of at most one. -/
theorem scale_le (hx : 0 ≤ x) (hn : 0 ≤ n) (hd : 0 < d) (h : n ≤ d) : scale x n d ≤ x := by
  rw [scale_eq_ediv hx hn]
  exact Int.ediv_le_of_le_mul hd (mul_le_mul_of_nonneg_left h hx)

/-! ## Whole multiples -/

/-- The multiple of `f` next to `x` on the side of zero. -/
def truncate (x f : ℤ) : ℤ := x.tdiv f * f

theorem truncate_truncate (x f : ℤ) : truncate (truncate x f) f = truncate x f := by
  rcases eq_or_ne f 0 with rfl | hf
  · simp [truncate]
  · rw [truncate, truncate, Int.mul_tdiv_cancel _ hf]

theorem truncate_mono {f : ℤ} (hf : 0 < f) (h : x ≤ y) : truncate x f ≤ truncate y f :=
  mul_le_mul_of_nonneg_right (Int.tdiv_le_tdiv hf h) hf.le

theorem truncate_le {f : ℤ} (hx : 0 ≤ x) (hf : 0 < f) : truncate x f ≤ x := by
  rw [truncate, Int.tdiv_eq_ediv_of_nonneg hx]
  exact Int.ediv_mul_le x hf.ne'

end FogoYield.Library
