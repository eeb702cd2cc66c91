import Mathlib.Algebra.Order.Field.Basic
import Mathlib.Tactic.FieldSimp
import Mathlib.Tactic.Linarith
import Mathlib.Tactic.Ring

/-!
# Cubic segments

A cubic Bézier curve in one coordinate, over any ordered field. Written by its ends `p` and `q` and
by its tangents relative to the rise `q - p` (`hermite`), its change from one parameter to a later
one is the rise times a factor that depends on the two relative tangents alone
(`hermite_sub_hermite`). The factor is the three-point rule on the derivative, exact for cubics,
so no calculus is needed: where the derivative is not negative (`0 ≤ slope`), the curve only goes
from `p` towards `q`.

The derivative is not negative if the relative tangents are not and lie in the disc of radius three
(`slope_nonneg`), the sufficient condition of Fritsch and Carlson.
-/

namespace Cubic

variable {K : Type*} [Field K]

/-- The cubic Bézier curve with the given control values. -/
def bezier (p₀ p₁ p₂ p₃ t : K) : K :=
  (1 - t) ^ 3 * p₀ + 3 • ((1 - t) ^ 2 * t * p₁) + 3 • ((1 - t) * t ^ 2 * p₂) + t ^ 3 * p₃

/-- The curve from `p` to `q` whose tangents are `a` and `b` times the rise. -/
def hermite (p q a b t : K) : K :=
  bezier p (p + a * (q - p) / (3 : ℕ)) (q - b * (q - p) / (3 : ℕ)) q t

/-- The derivative of the curve from `0` to `1` with tangents `a` and `b`. -/
def slope (a b t : K) : K :=
  a * (1 - t) ^ 2 + 2 • (((3 : ℕ) - a - b) * (t * (1 - t))) + b * t ^ 2

/-- How much of its rise the curve makes between two parameters. -/
def gain (a b t u : K) : K :=
  (u - t) / (6 : ℕ) * (slope a b t + 4 • slope a b ((t + u) / (2 : ℕ)) + slope a b u)

theorem bezier_eq (p₀ p₁ p₂ p₃ t : K) : bezier p₀ p₁ p₂ p₃ t =
    (1 - t) ^ 3 * p₀ + 3 * (1 - t) ^ 2 * t * p₁ + 3 * (1 - t) * t ^ 2 * p₂ + t ^ 3 * p₃ := by
  rw [bezier]
  ring

theorem hermite_eq (p q a b t : K) :
    hermite p q a b t = bezier p (p + a * (q - p) / 3) (q - b * (q - p) / 3) q t := rfl

theorem slope_eq (a b t : K) :
    slope a b t = a * (1 - t) ^ 2 + 2 * (3 - a - b) * (t * (1 - t)) + b * t ^ 2 := by
  rw [slope]
  push_cast
  ring

theorem gain_eq (a b t u : K) :
    gain a b t u = (u - t) / 6 * (slope a b t + 4 * slope a b ((t + u) / 2) + slope a b u) := by
  rw [gain]
  push_cast
  ring

/-- Control values a third of the way apart make a straight line. -/
theorem bezier_thirds [CharZero K] (p q t : K) :
    bezier p (p + (q - p) / 3) (q - (q - p) / 3) q t = p + t * (q - p) := by
  rw [bezier_eq]
  field_simp
  ring

theorem hermite_sub_hermite [CharZero K] (p q a b t u : K) :
    hermite p q a b u - hermite p q a b t = gain a b t u * (q - p) := by
  simp only [hermite_eq, gain_eq, slope_eq, bezier_eq]
  field_simp
  ring

@[simp] theorem hermite_zero (p q a b : K) : hermite p q a b 0 = p := by
  simp [hermite_eq, bezier_eq]

@[simp] theorem hermite_one (p q a b : K) : hermite p q a b 1 = q := by
  simp [hermite_eq, bezier_eq]

variable [LinearOrder K] [IsStrictOrderedRing K] {a b t u : K}

/-- Tangents in the disc of radius three whose sum is over three have a negative discriminant. -/
theorem sq_sub_three_le (h : a ^ 2 + b ^ 2 ≤ 9) (hsum : 3 ≤ a + b) : (a + b - 3) ^ 2 ≤ a * b := by
  have hnine : a + b ≤ 9 := by nlinarith [sq_nonneg (a - b)]
  nlinarith [mul_nonneg (sub_nonneg.2 hsum) (sub_nonneg.2 hnine)]

theorem slope_nonneg (ha : 0 ≤ a) (hb : 0 ≤ b) (h : a ^ 2 + b ^ 2 ≤ 9) (ht : 0 ≤ t) (ht' : t ≤ 1) :
    0 ≤ slope a b t := by
  have hprod : 0 ≤ t * (1 - t) := mul_nonneg ht (sub_nonneg.2 ht')
  rcases le_or_gt (a + b) 3 with hsum | hsum
  · have hmid : 0 ≤ 2 * (3 - a - b) * (t * (1 - t)) := mul_nonneg (by linarith) hprod
    rw [slope_eq]
    positivity
  · -- Completing the square: `a` is positive, and `a` times the slope is a sum of squares.
    have hapos : 0 < a := by nlinarith
    have hsquares : a * slope a b t =
        (a * (1 - t) - (a + b - 3) * t) ^ 2 + (a * b - (a + b - 3) ^ 2) * t ^ 2 := by
      rw [slope_eq]
      ring
    have hdisc := sub_nonneg.2 (sq_sub_three_le h hsum.le)
    refine nonneg_of_mul_nonneg_right ?_ hapos
    rw [hsquares]
    positivity

theorem gain_nonneg (ha : 0 ≤ a) (hb : 0 ≤ b) (h : a ^ 2 + b ^ 2 ≤ 9) (ht : 0 ≤ t) (htu : t ≤ u)
    (hu : u ≤ 1) : 0 ≤ gain a b t u := by
  have hstart := slope_nonneg ha hb h ht (htu.trans hu)
  have hmid := slope_nonneg ha hb h (t := (t + u) / 2) (by linarith) (by linarith)
  have hend := slope_nonneg ha hb h (ht.trans htu) hu
  rw [gain_eq]
  exact mul_nonneg (by linarith) (by linarith)

/-- Such a curve rises where its ends do. -/
theorem hermite_le_hermite {p q : K} (ha : 0 ≤ a) (hb : 0 ≤ b) (h : a ^ 2 + b ^ 2 ≤ 9) (ht : 0 ≤ t)
    (htu : t ≤ u) (hu : u ≤ 1) (hpq : p ≤ q) : hermite p q a b t ≤ hermite p q a b u := by
  have hgain := mul_nonneg (gain_nonneg ha hb h ht htu hu) (sub_nonneg.2 hpq)
  rw [← hermite_sub_hermite] at hgain
  exact sub_nonneg.1 hgain

/-- Such a curve falls where its ends do. -/
theorem hermite_le_hermite_of_ge {p q : K} (ha : 0 ≤ a) (hb : 0 ≤ b) (h : a ^ 2 + b ^ 2 ≤ 9)
    (ht : 0 ≤ t) (htu : t ≤ u) (hu : u ≤ 1) (hpq : q ≤ p) :
    hermite p q a b u ≤ hermite p q a b t := by
  have hgain := mul_nonpos_of_nonneg_of_nonpos (gain_nonneg ha hb h ht htu hu) (sub_nonpos.2 hpq)
  rw [← hermite_sub_hermite] at hgain
  exact sub_nonpos.1 hgain

end Cubic
