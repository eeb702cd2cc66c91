import Mathlib.Data.Int.Basic
import Mathlib.Tactic.Linarith
import Mathlib.Tactic.Ring

/-!
# Buckets of time

Flooring a point in time to a multiple of an interval, on integers and therefore also before the
epoch. Everything consumers need is in two equivalences: which points fall into an aligned bucket
(`bucket_eq_iff`), and when an aligned point is at or before a bucket (`le_bucket_iff`); and in the
fact that flooring commutes with shifts by whole intervals (`bucket_sub_mul`). A grid is a row of
buckets one after the other (`exists_eq_add_mul_iff`), and an ascending list of aligned points
between two ends is no longer than the grid between them (`mul_length_le_of_pairwise`).
-/

namespace Bucket

variable {w b t : ℤ}

/-- The start of the bucket of width `w` that contains `t`. -/
def bucket (w t : ℤ) : ℤ := t / w * w

theorem dvd_bucket (w t : ℤ) : w ∣ bucket w t := Dvd.intro_left _ rfl

theorem bucket_le (hw : 0 < w) (t : ℤ) : bucket w t ≤ t := Int.ediv_mul_le t hw.ne'

theorem lt_bucket_add (hw : 0 < w) (t : ℤ) : t < bucket w t + w := by
  have h := Int.lt_ediv_add_one_mul_self t hw
  rw [Int.add_mul, Int.one_mul] at h
  exact h

/-- Between two different aligned points there is a whole interval. -/
theorem add_le_of_lt (hw : 0 < w) (hb : w ∣ b) (ht : w ∣ t) (h : b < t) : b + w ≤ t := by
  obtain ⟨k, rfl⟩ := hb
  obtain ⟨l, rfl⟩ := ht
  have hkl : k + 1 ≤ l := lt_of_mul_lt_mul_left h hw.le
  calc w * k + w = w * (k + 1) := by ring
    _ ≤ w * l := mul_le_mul_of_nonneg_left hkl hw.le

/-- **The points of a bucket.** -/
theorem bucket_eq_iff (hw : 0 < w) (hb : w ∣ b) : bucket w t = b ↔ b ≤ t ∧ t < b + w := by
  constructor
  · rintro rfl
    exact ⟨bucket_le hw t, lt_bucket_add hw t⟩
  · rintro ⟨hle, hlt⟩
    rcases lt_trichotomy (bucket w t) b with h | h | h
    · exact absurd (lt_bucket_add hw t)
        (not_lt.2 (le_trans (add_le_of_lt hw (dvd_bucket w t) hb h) hle))
    · exact h
    · exact absurd hlt
        (not_lt.2 (le_trans (add_le_of_lt hw hb (dvd_bucket w t) h) (bucket_le hw t)))

/-- **Aligned points up to a bucket.** -/
theorem le_bucket_iff (hw : 0 < w) (hb : w ∣ b) : b ≤ bucket w t ↔ b ≤ t := by
  constructor
  · exact fun h ↦ h.trans (bucket_le hw t)
  · intro h
    by_contra hlt
    have := add_le_of_lt hw (dvd_bucket w t) hb (not_le.1 hlt)
    exact absurd (lt_bucket_add hw t) (not_lt.2 (this.trans h))

/-- Aligned points from a bucket on are those whose interval reaches past the point. -/
theorem bucket_le_iff (hw : 0 < w) (hb : w ∣ b) : bucket w t ≤ b ↔ t < b + w := by
  constructor
  · intro h
    exact (lt_bucket_add hw t).trans_le (by omega)
  · intro h
    by_contra hlt
    have := add_le_of_lt hw hb (dvd_bucket w t) (not_le.1 hlt)
    exact absurd h (not_lt.2 (this.trans (bucket_le hw t)))

/-- **Flooring commutes with shifts by whole intervals.** -/
theorem bucket_sub_mul (hw : 0 < w) (t k : ℤ) : bucket w (t - k * w) = bucket w t - k * w := by
  have hb : w ∣ bucket w t - k * w := Int.dvd_sub (dvd_bucket w t) (Dvd.intro_left k rfl)
  rw [bucket_eq_iff hw hb]
  have := bucket_le hw t
  have := lt_bucket_add hw t
  omega

/-- **The points of a grid** are the aligned points between its ends. -/
theorem exists_eq_add_mul_iff {s : ℤ} {n : ℕ} (hw : 0 < w) (hs : w ∣ s) :
    (∃ k < n + 1, b = s + (k : ℕ) * w) ↔ w ∣ b ∧ s ≤ b ∧ b ≤ s + n * w := by
  constructor
  · rintro ⟨k, hk, rfl⟩
    have hnonneg : 0 ≤ (k : ℤ) * w := mul_nonneg (Int.natCast_nonneg k) hw.le
    have hle : (k : ℤ) * w ≤ n * w := mul_le_mul_of_nonneg_right (by omega) hw.le
    exact ⟨Int.dvd_add hs (dvd_mul_left _ _), by omega, by omega⟩
  · rintro ⟨hb, hlo, hhi⟩
    obtain ⟨k, hk⟩ := Int.dvd_sub hb hs
    have hpos : 0 ≤ k := nonneg_of_mul_nonneg_right (by omega : 0 ≤ w * k) hw
    have hkn : k ≤ n := le_of_mul_le_mul_left (by linarith : w * k ≤ w * n) hw
    refine ⟨k.toNat, by omega, ?_⟩
    rw [Int.toNat_of_nonneg hpos, mul_comm]
    omega

/-- **How many aligned points fit** between two ends, in ascending order. -/
theorem mul_length_le_of_pairwise (lo : ℤ) {hi : ℤ} {points : List ℤ} (hw : 0 < w)
    (hsorted : points.Pairwise (· < ·)) (haligned : ∀ b ∈ points, w ∣ b)
    (hlo : ∀ b ∈ points, lo ≤ b) (hhi : ∀ b ∈ points, b ≤ hi) (hle : lo ≤ hi + w) :
    w * points.length ≤ hi + w - lo := by
  induction points generalizing lo with
  | nil =>
    rw [List.length_nil, Int.natCast_zero, Int.mul_zero]
    omega
  | cons b rest ih =>
    rw [List.pairwise_cons] at hsorted
    rw [List.forall_mem_cons] at haligned hlo hhi
    -- the rest lies a whole interval further on
    have hrest := ih _ hsorted.2 haligned.2
      (fun c hc ↦ add_le_of_lt hw haligned.1 (haligned.2 c hc) (hsorted.1 c hc)) hhi.2 (by omega)
    have hcons : w * ((b :: rest).length : ℤ) = w * rest.length + w := by
      rw [List.length_cons, Int.natCast_succ, Int.mul_add, Int.mul_one]
    omega

end Bucket
