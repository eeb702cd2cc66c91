import Mathlib.Algebra.BigOperators.Group.List.Basic
import Mathlib.Algebra.Order.BigOperators.Group.List
import Mathlib.Algebra.Order.Group.Defs
import Mathlib.Algebra.Order.Group.Unbundled.Basic

/-!
# Tilings of an interval

Widths laid side by side tile the interval from zero to their sum. `locate` walks along them to the
tile that a point lies on. Tiles are closed on the left and open on the right, so a tile of width
zero has no point (`locate_eq_some_iff`), and every point below the sum has a tile
(`exists_locate`).
-/

namespace Tiling

variable {α : Type*} [AddCommGroup α] [LinearOrder α]

/-- The tile a point lies on. -/
def locate (t : α) : List α → Option ℕ
  | [] => none
  | w :: widths => if t < w then some 0 else (locate (t - w) widths).map (· + 1)

variable [IsOrderedAddMonoid α] {widths : List α}

theorem sum_take_nonneg (hwidths : ∀ w ∈ widths, 0 ≤ w) (i : ℕ) : 0 ≤ (widths.take i).sum :=
  List.sum_nonneg fun w hw ↦ hwidths w (List.mem_of_mem_take hw)

theorem sum_take_le (hwidths : ∀ w ∈ widths, 0 ≤ w) (i : ℕ) :
    (widths.take i).sum ≤ widths.sum := by
  rw [← List.sum_take_add_sum_drop widths i]
  exact le_add_of_nonneg_right (List.sum_nonneg fun w hw ↦ hwidths w (List.mem_of_mem_drop hw))

/-- **A point lies on the tile** that begins at or before it and ends behind it. -/
theorem locate_eq_some_iff (hwidths : ∀ w ∈ widths, 0 ≤ w) {t : α} (ht : 0 ≤ t) {i : ℕ} :
    locate t widths = some i ↔ (widths.take i).sum ≤ t ∧ t < (widths.take (i + 1)).sum := by
  induction widths generalizing t i with
  | nil =>
    simp only [locate, List.take_nil, List.sum_nil]
    exact iff_of_false (by simp) fun h ↦ absurd h.2 (not_lt.2 ht)
  | cons w widths ih =>
    rw [List.forall_mem_cons] at hwidths
    rw [locate]
    by_cases hlt : t < w
    · rw [if_pos hlt, Option.some.injEq]
      cases i with
      | zero => simpa using ⟨ht, hlt⟩
      | succ i =>
        -- a later tile begins behind the first one
        have hrest := sum_take_nonneg hwidths.2 i
        refine iff_of_false (by omega) fun h ↦ absurd hlt (not_lt.2 ?_)
        rw [List.take_succ_cons, List.sum_cons] at h
        exact (le_add_of_nonneg_right hrest).trans h.1
    · rw [if_neg hlt]
      cases i with
      | zero =>
        refine iff_of_false (by simp) fun h ↦ hlt ?_
        simpa using h.2
      | succ i =>
        rw [Option.map_eq_some_iff]
        simp only [Nat.add_right_cancel_iff, exists_eq_right]
        rw [ih hwidths.2 (sub_nonneg.2 (not_lt.1 hlt)), List.take_succ_cons, List.sum_cons,
          List.take_succ_cons, List.sum_cons, le_sub_iff_add_le', sub_lt_iff_lt_add']

/-- **Every point below the sum** lies on a tile. -/
theorem exists_locate {t : α} (ht : 0 ≤ t) (hlt : t < widths.sum) :
    ∃ i, locate t widths = some i := by
  induction widths generalizing t with
  | nil => exact absurd hlt (not_lt.2 ht)
  | cons w widths ih =>
    rw [List.sum_cons] at hlt
    rw [locate]
    by_cases hfirst : t < w
    · exact ⟨0, if_pos hfirst⟩
    · obtain ⟨i, hi⟩ := ih (sub_nonneg.2 (not_lt.1 hfirst)) (sub_lt_iff_lt_add'.2 hlt)
      exact ⟨i + 1, by rw [if_neg hfirst, hi, Option.map_some]⟩

end Tiling
