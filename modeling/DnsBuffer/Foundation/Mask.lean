import Mathlib.Data.BitVec

/-!
# Masks of leading bits

Words of any width, with their bits counted from the top. Masking keeps the leading bits and clears
the others (`getMsbD_and_leading`), so words that agree on the leading bits are masked to the same
word, and masking twice is masking once.
-/

namespace Mask

variable {w p : ℕ}

/-- The word whose first `p` bits are set. -/
def leading (w p : ℕ) : BitVec w := BitVec.allOnes w <<< (w - p)

theorem getMsbD_leading (hp : p ≤ w) (i : ℕ) : (leading w p).getMsbD i = decide (i < p) := by
  rw [leading, BitVec.getMsbD_shiftLeft, BitVec.getMsbD_allOnes, decide_eq_decide]
  omega

theorem leading_zero (w : ℕ) : leading w 0 = 0 := by
  refine BitVec.eq_of_getMsbD_eq fun i _ ↦ ?_
  rw [getMsbD_leading (Nat.zero_le w)]
  simp

/-- **What masking keeps.** -/
theorem getMsbD_and_leading (x : BitVec w) (hp : p ≤ w) (i : ℕ) :
    (x &&& leading w p).getMsbD i = (decide (i < p) && x.getMsbD i) := by
  rw [BitVec.getMsbD_and, getMsbD_leading hp, Bool.and_comm]

/-- Words that agree on the leading bits. -/
theorem and_leading_eq_of_agree {x y : BitVec w} (hp : p ≤ w)
    (h : ∀ i < p, x.getMsbD i = y.getMsbD i) : x &&& leading w p = y &&& leading w p := by
  refine BitVec.eq_of_getMsbD_eq fun i _ ↦ ?_
  rw [getMsbD_and_leading x hp, getMsbD_and_leading y hp]
  by_cases hi : i < p
  · rw [h i hi]
  · rw [decide_eq_false hi, Bool.false_and, Bool.false_and]

theorem and_leading_and_leading (x : BitVec w) :
    x &&& leading w p &&& leading w p = x &&& leading w p := by
  rw [BitVec.and_assoc, BitVec.and_self]

end Mask
